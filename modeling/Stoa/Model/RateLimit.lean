import Stoa.Model.AccountFence
import Stoa.Store.Interleaving

/-! # Rate admission

One counted admission for each logical chat or hint operation, under a cap. -/

namespace Stoa.RateLimit

open RowStore

inductive RateKind where
  | chat
  | hint
  deriving DecidableEq, Repr

def RateKind.text : RateKind → String
  | .chat => "chat"
  | .hint => "hint"

def RateKind.upper : RateKind → String
  | .chat => "CHAT"
  | .hint => "HINT"

/-! ## Rows -/

inductive Key where
  | accountFence (user : String)
  | counter (owner : String) (kind : RateKind) (quotaPeriod : String)
  | operation (owner : String) (kind : RateKind) (operationId : Sha256)
  deriving DecidableEq

/-- A counter is only ever updated, so each of its attributes may be missing. -/
structure CounterRow where
  count : Option ℤ
  expiresAt : Option ℤ
  entityType : Option String
  ownerId : Option String
  quotaPeriod : Option String
  accountFenceGeneration : Option ℤ

structure OperationRow where
  entityType : String
  schemaVersion : String
  operationId : Sha256
  ownerId : String
  kind : RateKind
  quotaPeriod : String
  payloadDigest : Sha256
  status : String
  decision : String
  counterValueAfter : ℤ
  limit : ℤ
  receiptExpiresAt : ℤ
  accountFenceGeneration : ℤ
  createdAt : Instant
  expiresAt : ℤ

abbrev Row : Key → Type
  | .accountFence _ => FenceRow
  | .counter _ _ _ => CounterRow
  | .operation _ _ _ => OperationRow

/-! ## Arguments -/

/-- Lower case, on ASCII letters only. No other character has a lower case that
is made of the letters of the two kinds. -/
def lower (text : String) : String := String.ofList (text.toList.map Char.toLower)

def rateKind (value : String) : Except Failure RateKind := do
  let text ← strippedText value "kind"
  if lower text = "chat" then .ok .chat
  else if lower text = "hint" then .ok .hint
  else .error (.valueError "unsupported rate kind")

def sha256Digest (value field : String) : Except Failure Sha256 := do
  let text ← strippedText value field
  if h : IsSha256 text then .ok ⟨text, h⟩
  else .error (.valueError (field ++ " must be a lowercase SHA-256 digest"))

def monthLengths (leap : Bool) : List ℤ :=
  [31, if leap then 29 else 28, 31, 30, 31, 30, 31, 31, 30, 31, 30, 31]

/-- Month and day of a day of the year, both counted from the given ones. -/
def monthDay : List ℤ → ℤ → ℤ → ℤ × ℤ
  | [], month, day => (month, day)
  | length :: rest, month, day =>
      if day ≤ length then (month, day) else monthDay rest (month + 1) (day - length)

/-- The UTC date of an instant, as `strftime("%Y-%m-%d")` prints it. -/
def utcDate (now : Instant) : String :=
  let date := ordinal now
  let year := yearOf date
  let leap := decide (year % 4 = 0 ∧ (year % 100 ≠ 0 ∨ year % 400 = 0))
  let md := monthDay (monthLengths leap) 1 (date - daysBeforeYear year)
  String.ofList [digit (year / 1000), digit (year / 100), digit (year / 10), digit year, '-',
    digit (md.1 / 10), digit md.1, '-', digit (md.2 / 10), digit md.2]

/-- Whole seconds since the epoch, truncated towards it. -/
def epochSeconds (now : Instant) : ℤ := now.tdiv 1000000

def OPERATION_TTL_SECONDS : ℤ := 172800

def OPERATION_SCHEMA_VERSION : String := "rate-admission-operation.v2"

/-- The arguments of `check_and_record_operation`; `now` is the clock's reading
where none is given. -/
structure Request where
  ownerId : String
  kind : String
  operationId : String
  payloadDigest : String
  limit : ℤ
  quotaPeriod : Option String
  accountFenceGeneration : Option ℤ
  now : Instant

/-- The arguments once they are checked. -/
structure Admission where
  owner : String
  kind : RateKind
  operationId : Sha256
  digest : Sha256
  limit : ℤ
  period : String
  accountFenceGeneration : Option ℤ
  now : Instant
  limit_pos : 0 < limit

def Request.checked (r : Request) : Except Failure Admission := do
  let owner ← strippedText r.ownerId "owner_id"
  let kind ← rateKind r.kind
  let operationId ← sha256Digest r.operationId "operation_id"
  let digest ← sha256Digest r.payloadDigest "payload_digest"
  if h : 0 < r.limit then
    -- An empty period counts as none given.
    let period ← strippedText
      (match r.quotaPeriod with
        | none => utcDate r.now
        | some period => if period = "" then utcDate r.now else period) "quota_period"
    return {
      owner, kind, operationId, digest, period
      limit := r.limit
      accountFenceGeneration := r.accountFenceGeneration
      now := r.now
      limit_pos := h }
  else .error (.valueError "limit must be a positive integer")

/-! ## Results -/

inductive RateAdmissionDisposition where
  | admitted
  | replayed
  | limitExceeded
  | idempotencyConflict
  | retryable
  deriving DecidableEq, Repr

def RateAdmissionDisposition.value : RateAdmissionDisposition → String
  | .admitted => "admitted"
  | .replayed => "replayed"
  | .limitExceeded => "limit_exceeded"
  | .idempotencyConflict => "idempotency_conflict"
  | .retryable => "retryable"

structure RateAdmissionResult where
  disposition : RateAdmissionDisposition
  ownerId : String
  kind : RateKind
  operationId : Sha256
  quotaPeriod : String
  counterKey : String
  counterValue : ℤ
  limit : ℤ
  expiresAt : ℤ
  decision : String

structure CounterReceipt where
  quotaPeriod : String
  counterKey : String
  counterValue : ℤ
  limit : ℤ
  expiresAt : ℤ
  operationId : Sha256
  admissionStatus : String

def RateAdmissionResult.counterReceipt (r : RateAdmissionResult) : CounterReceipt where
  quotaPeriod := r.quotaPeriod
  counterKey := r.counterKey
  counterValue := r.counterValue
  limit := r.limit
  expiresAt := r.expiresAt
  operationId := r.operationId
  admissionStatus := r.decision

def storedNonnegativeInt (value : ℤ) : Option ℤ := if 0 ≤ value then some value else none

namespace Admission

def counterKey (v : Admission) : Key := .counter v.owner v.kind v.period

def operationKey (v : Admission) : Key := .operation v.owner v.kind v.operationId

/-- The counter's key as a receipt names it. -/
def counterKeyText (v : Admission) : String :=
  "USAGE#" ++ v.owner ++ "/" ++ v.kind.upper ++ "#" ++ v.period

def expiresAtValue (v : Admission) : ℤ := epochSeconds v.now + OPERATION_TTL_SECONDS

def result (v : Admission) (disposition : RateAdmissionDisposition) (counterValue limit expiresAt : ℤ)
    (decision : String) : RateAdmissionResult where
  disposition := disposition
  ownerId := v.owner
  kind := v.kind
  operationId := v.operationId
  quotaPeriod := v.period
  counterKey := v.counterKeyText
  counterValue := counterValue
  limit := limit
  expiresAt := expiresAt
  decision := decision

def retryable (v : Admission) (counterValue expiresAt : ℤ) : RateAdmissionResult :=
  v.result .retryable counterValue v.limit expiresAt "retryable"

/-- What makes a stored receipt unusable for this call. -/
def ReceiptIsInvalid (v : Admission) (item : OperationRow) : Prop :=
  item.entityType ≠ "rate_admission_operation" ∨
    item.schemaVersion ≠ OPERATION_SCHEMA_VERSION ∨ item.ownerId ≠ v.owner ∨
    item.kind ≠ v.kind ∨ item.operationId ≠ v.operationId ∨ item.quotaPeriod ≠ v.period ∨
    item.status ≠ "admitted" ∨ item.decision ≠ "admitted" ∨
    item.counterValueAfter ≤ 0 ∨ item.limit ≤ 0 ∨ item.receiptExpiresAt < 0

instance (v : Admission) (item : OperationRow) : Decidable (v.ReceiptIsInvalid item) :=
  inferInstanceAs (Decidable (_ ∨ _))

def classifyOperation (v : Admission) (item : OperationRow) : RateAdmissionResult :=
  let counterValue := (storedNonnegativeInt item.counterValueAfter).getD 0
  -- A stored limit of 0 is replaced by the requested one, like a missing one.
  let limit := match storedNonnegativeInt item.limit with
    | some limit => if limit = 0 then v.limit else limit
    | none => v.limit
  let expiresAt := (storedNonnegativeInt item.receiptExpiresAt).getD 0
  if v.ReceiptIsInvalid item then v.result .retryable counterValue limit expiresAt "retryable"
  else if item.payloadDigest ≠ v.digest then
    v.result .idempotencyConflict counterValue limit expiresAt item.decision
  else v.result .replayed counterValue limit expiresAt item.decision

/-- What `_counter_state` reads: the count, the expiry, and whether each is there. -/
structure CounterState where
  count : ℤ
  expiresAt : ℤ
  countExists : Bool
  expiryExists : Bool

/-- `none` when the counter cannot be read or is damaged. -/
def counterState : Option (Option CounterRow) → Option CounterState
  | none => none
  | some item =>
      let count := item.bind fun row => row.count
      let expiresAt := item.bind fun row => row.expiresAt
      match storedNonnegativeInt (count.getD 0), storedNonnegativeInt (expiresAt.getD 0) with
      | some c, some e => some ⟨c, e, count.isSome, expiresAt.isSome⟩
      | _, _ => none

def receiptExpiry (v : Admission) (state : CounterState) : ℤ :=
  if state.expiryExists then state.expiresAt else v.expiresAtValue

def operation (v : Admission) (generation : ℤ) (state : CounterState) : OperationRow where
  entityType := "rate_admission_operation"
  schemaVersion := OPERATION_SCHEMA_VERSION
  operationId := v.operationId
  ownerId := v.owner
  kind := v.kind
  quotaPeriod := v.period
  payloadDigest := v.digest
  status := "admitted"
  decision := "admitted"
  counterValueAfter := state.count + 1
  limit := v.limit
  receiptExpiresAt := v.receiptExpiry state
  accountFenceGeneration := generation
  createdAt := v.now
  expiresAt := v.expiresAtValue

/-- The update expression on the counter. -/
def nextCounter (v : Admission) (generation : ℤ) (state : CounterState)
    (stored : Option CounterRow) : CounterRow where
  count := some (state.count + 1)
  expiresAt := some ((stored.bind fun row => row.expiresAt).getD v.expiresAtValue)
  entityType := some ((stored.bind fun row => row.entityType).getD "rate_counter")
  ownerId := some ((stored.bind fun row => row.ownerId).getD v.owner)
  quotaPeriod := some ((stored.bind fun row => row.quotaPeriod).getD v.period)
  accountFenceGeneration := some generation

def counterCondition (state : CounterState) (stored : Option CounterRow) : Bool :=
  let count := stored.bind fun row => row.count
  if state.countExists then count = some state.count else count.isNone

def operations (v : Admission) (generation : ℤ) (state : CounterState) : List (Write Key Row) :=
  [.check (.accountFence v.owner) (activeFenceCondition (some generation)),
    .putNew (.operation v.owner v.kind v.operationId) (v.operation generation state),
    .update (.counter v.owner v.kind v.period) (v.nextCounter generation state)
      (counterCondition state)]

abbrev Answer := Except Failure RateAdmissionResult

/-- The remaining rounds; `counterValue` and `storedExpiry` are those of the last
counter that was read. -/
def rounds (v : Admission) (generation : ℤ) : ℕ → ℤ → ℤ → Program Key Row Answer
  | 0, counterValue, storedExpiry => .ret (.ok (v.retryable counterValue storedExpiry))
  | n + 1, counterValue, storedExpiry =>
    .read (.operation v.owner v.kind v.operationId) fun
      | none => .ret (.ok (v.retryable counterValue storedExpiry))
      | some (some existing) => .ret (.ok (v.classifyOperation existing))
      | some none =>
        .read (.counter v.owner v.kind v.period) fun answer =>
          match counterState answer with
          | none => .ret (.ok (v.retryable counterValue storedExpiry))
          | some state =>
            if state.count ≥ v.limit then
              .ret (.ok (v.result .limitExceeded state.count v.limit state.expiresAt
                "limit_exceeded"))
            else
              .transact (v.operations generation state) fun
                | true => .ret (.ok (v.result .admitted (state.count + 1) v.limit
                    (v.receiptExpiry state) "admitted"))
                | false =>
                  .read (.operation v.owner v.kind v.operationId) fun
                    | none => .ret (.ok (v.retryable state.count state.expiresAt))
                    | some (some raced) => .ret (.ok (v.classifyOperation raced))
                    | some none => v.rounds generation n state.count state.expiresAt

def run (v : Admission) : Program Key Row Answer :=
  .read (.operation v.owner v.kind v.operationId) fun
    | none => .ret (.ok (v.retryable 0 0))
    | some (some existing) => .ret (.ok (v.classifyOperation existing))
    | some none =>
      .read (.counter v.owner v.kind v.period) fun answer =>
        match counterState answer with
        | none => .ret (.ok (v.retryable 0 0))
        | some state =>
          match v.accountFenceGeneration with
          | some generation =>
            if generation ≤ 0 then .ret (.ok (v.retryable state.count state.expiresAt))
            else v.rounds generation 3 state.count state.expiresAt
          | none =>
            .read (.accountFence v.owner) fun
              -- A read of the fence that raises is not caught here.
              | none => .ret (.error .tableError)
              | some fence =>
                match requireActiveAccountFence fence none with
                | none => .ret (.ok (v.retryable state.count state.expiresAt))
                | some generation => v.rounds generation 3 state.count state.expiresAt

end Admission

def checkAndRecordOperation (r : Request) : Program Key Row Admission.Answer :=
  match r.checked with
  | .error failure => .ret (.error failure)
  | .ok v => v.run

/-- Other code may write fences, and no counter or receipt. -/
def FenceDrift (t t' : Table Key Row) : Prop :=
  ∀ k, (∀ user, k ≠ .accountFence user) → t'.row k = t.row k

/-- Any number of calls against one table. -/
def service (faults : Faults) : Service Key Row Request Admission.Answer where
  body := checkAndRecordOperation
  mayStart := fun _ _ => True
  drift := FenceDrift
  faults := faults

/-- A table on which no call has run. -/
def Fresh (t : Table Key Row) : Prop :=
  ∀ k, (∀ user, k ≠ .accountFence user) → t.row k = none

end Stoa.RateLimit
