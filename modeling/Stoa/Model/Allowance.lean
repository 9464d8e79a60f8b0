import Stoa.Model.AccountFence
import Stoa.Model.WeeklyCounter
import Stoa.Store.Interleaving

/-! # The weekly token allowance

Reserving tokens for an effect, recording what the provider used, and
finalizing or restoring the reservation. -/

namespace Stoa.Allowance

open RowStore

/-! ## Rows -/

inductive Key where
  | accountFence (user : Text)
  | counter (beneficiary : Text) (week : String)
  | effect (beneficiary : Text) (effect : Sha256)
  | providerUsage (beneficiary : Text) (evidence : Sha256)
  deriving DecidableEq

/-- The ledger's own attributes of a token counter. -/
structure TokenFields where
  planId : BillingPlanId
  allowanceVersion : ℤ
  budgetInputTokens : ℤ
  budgetOutputTokens : ℤ
  accountFenceGeneration : ℤ

inductive EffectState where
  | reserved
  | observed
  | finalized
  | restored
  deriving DecidableEq, Repr

/-- What `reserve_allowance` writes on an effect; no later call changes it. -/
structure ReservedEffect extends WeekFields where
  entityType : String
  schemaVersion : String
  reservationId : Sha256
  effectId : Sha256
  beneficiaryId : Text
  planId : BillingPlanId
  allowanceVersion : ℤ
  weekIdentity : String
  reservationInputTokens : ℤ
  reservationOutputTokens : ℤ
  reservationStateVersion : ℤ
  reservationPayloadDigest : Sha256
  accountFenceGeneration : ℤ
  createdAt : Instant
  expiresAt : Instant

/-- What the recorded provider usage adds to an effect. -/
structure ObservedEffect where
  evidenceId : Sha256
  providerInputTokens : ℤ
  providerOutputTokens : ℤ
  providerPayloadDigest : Sha256
  providerObservedAt : Instant

/-- The predicates a caller reports about the delivery of a result. -/
structure DeliveryFlags where
  technicalValidationPassed : Bool
  safetyCheckPassed : Bool
  durableResultStored : Bool
  stableReplayReadable : Bool
  deriving DecidableEq, Repr

def DeliveryFlags.delivered (flags : DeliveryFlags) : Bool :=
  flags.technicalValidationPassed && flags.safetyCheckPassed && flags.durableResultStored &&
    flags.stableReplayReadable

/-- What finalizing or restoring adds to an effect. -/
structure FinalizedEffect where
  finalizedInputTokens : ℤ
  finalizedOutputTokens : ℤ
  restoredInputTokens : ℤ
  restoredOutputTokens : ℤ
  providerCostRetained : Bool
  flags : DeliveryFlags
  finalizationPayloadDigest : Sha256
  finalizedAt : Instant
  restoredAt : Option Instant

structure EffectRow extends ReservedEffect where
  state : EffectState
  stateVersion : ℤ
  updatedAt : Instant
  observed : Option ObservedEffect
  finalized : Option FinalizedEffect

structure EvidenceRow where
  entityType : String
  schemaVersion : String
  evidenceId : Sha256
  effectId : Sha256
  beneficiaryId : Text
  weekIdentity : String
  providerRequestIdDigest : Sha256
  modelIdDigest : Sha256
  inputTokens : ℤ
  outputTokens : ℤ
  providerCostRetained : Bool
  providerPayloadDigest : Sha256
  observedAt : Instant
  costBasis : Option String

abbrev Row : Key → Type
  | .accountFence _ => FenceRow
  | .counter _ _ => CounterRow TokenField TokenFields
  | .effect _ _ => EffectRow
  | .providerUsage _ _ => EvidenceRow

def ALLOWANCE_EFFECT_SCHEMA_VERSION : String := "allowance_effect.v1"

def PROVIDER_USAGE_EVIDENCE_SCHEMA_VERSION : String := "provider_usage_evidence.v1"

/-! ## Digests -/

inductive Payload where
  | reservation (beneficiaryId : Text) (effectId : Sha256) (weekIdentity : String)
      (planId : BillingPlanId) (allowanceVersion budgetInputTokens budgetOutputTokens
        inputTokens outputTokens : ℤ)
  | providerUsage (beneficiaryId : Text) (effectId providerRequestIdDigest
      modelIdDigest : Sha256) (inputTokens outputTokens : ℤ) (costBasis : Option String)
  | finalization (beneficiaryId : Text) (effectId : Sha256) (flags : DeliveryFlags)
  | restoration (beneficiaryId : Text) (effectId : Sha256) (flags : DeliveryFlags)
  | unknownCost (effectId : Sha256)
  deriving DecidableEq

/-- What the ledger takes from outside: the Zurich time zone, the digest of a
payload's canonical JSON, and the evidence id derived from an effect id. -/
structure Env where
  zone : Zone
  payloadDigest : Payload → Sha256
  evidenceId : Sha256 → Sha256

/-! ## Results -/

inductive ReservationDisposition where
  | admitted
  | replayed
  | limitExceeded
  | idempotencyConflict
  | retryable
  deriving DecidableEq, Repr

inductive ProviderUsageDisposition where
  | recorded
  | replayed
  | idempotencyConflict
  | invalidState
  | retryable
  deriving DecidableEq, Repr

inductive FinalizationDisposition where
  | finalized
  | restored
  | replayed
  | idempotencyConflict
  | invalidState
  | retryable
  deriving DecidableEq, Repr

inductive ReleaseDisposition where
  | released
  | alreadySettled
  | nothingReserved
  | invalidState
  | retryable
  deriving DecidableEq, Repr

structure AllowanceReservation (zone : Zone) where
  reservationId : Sha256
  effectId : Sha256
  beneficiaryId : Text
  planId : BillingPlanId
  allowanceVersion : Version
  week : ZurichWeek zone
  inputTokens : Count
  outputTokens : Count
  stateVersion : Version
  expiresAt : Instant

structure ProviderUsageEvidence where
  evidenceId : Sha256
  effectId : Sha256
  providerRequestIdDigest : Sha256
  modelIdDigest : Sha256
  inputTokens : Count
  outputTokens : Count
  providerCostRetained : Bool
  observedAt : Instant

/-- A delivered result restores nothing, an undelivered one finalizes nothing. -/
structure AllowanceFinalization where
  reservationId : Sha256
  evidenceId : Sha256
  finalizedInputTokens : Count
  finalizedOutputTokens : Count
  restoredInputTokens : Count
  restoredOutputTokens : Count
  providerCostRetained : Bool
  flags : DeliveryFlags
  stateVersion : Version
  finalizedAt : Instant
  user_debit_outcome :
    if flags.delivered then restoredInputTokens.val + restoredOutputTokens.val = 0
    else finalizedInputTokens.val + finalizedOutputTokens.val = 0

structure ReservationResult (zone : Zone) where
  disposition : ReservationDisposition
  reservation : Option (AllowanceReservation zone)

structure ProviderUsageResult where
  disposition : ProviderUsageDisposition
  evidence : Option ProviderUsageEvidence

structure FinalizationResult where
  disposition : FinalizationDisposition
  finalization : Option AllowanceFinalization

/-! ## Reading rows back -/

def storedCount (value : ℤ) (field : String) : Except String Count :=
  if h : IsCount value then .ok ⟨value, h⟩ else .error ("malformed " ++ field)

def storedPositive (value : ℤ) (field : String) : Except String Version :=
  if h : IsPositive value then .ok ⟨value, h⟩ else .error ("malformed " ++ field)

/-- A token counter with the ledger's own attributes checked. -/
structure LedgerCounter (beneficiary : Text) (week : WeekFields) where
  counter : Counter TOKENS beneficiary.val week TokenFields
  fields : TokenFields
  fields_eq : counter.item.fields = some fields
  budgetInputTokens : IsPositive fields.budgetInputTokens
  budgetOutputTokens : IsPositive fields.budgetOutputTokens
  allowanceVersion : IsPositive fields.allowanceVersion
  accountFenceGeneration : IsPositive fields.accountFenceGeneration
  createdAt : counter.item.createdAt.isSome

/-- The counter's own count of a field. -/
def LedgerCounter.count {beneficiary : Text} {week : WeekFields}
    (c : LedgerCounter beneficiary week) (field : TokenField) : ℤ :=
  c.counter.item.counts field

def checkLedger {beneficiary : Text} {week : WeekFields}
    (counter : Counter TOKENS beneficiary.val week TokenFields) :
    Except String (LedgerCounter beneficiary week) :=
  match h : counter.item.fields with
  | none => .error "malformed budget_input_tokens"
  | some fields =>
      if hin : IsPositive fields.budgetInputTokens then
        if hout : IsPositive fields.budgetOutputTokens then
          if hversion : IsPositive fields.allowanceVersion then
            if hfence : IsPositive fields.accountFenceGeneration then
              if hcreated : counter.item.createdAt.isSome then
                .ok ⟨counter, fields, h, hin, hout, hversion, hfence, hcreated⟩
              else .error "malformed allowance counter"
            else .error "malformed account_fence_generation"
          else .error "malformed allowance_version"
        else .error "malformed budget_output_tokens"
      else .error "malformed budget_input_tokens"

def readCounter (beneficiary : Text) (week : WeekFields)
    (answer : Option (Option (CounterRow TokenField TokenFields))) :
    Except String (Option (LedgerCounter beneficiary week)) :=
  match readBack TOKENS beneficiary.val week answer with
  | .error message => .error message
  | .ok none => .ok none
  | .ok (some counter) => (checkLedger counter).map some

variable (env : Env)

def reservationFromEffect (item : ReservedEffect) :
    Except String (AllowanceReservation env.zone) := do
  let allowanceVersion ← storedPositive item.allowanceVersion "allowance_version"
  let _ ← storedPositive item.isoYear "iso_year"
  let _ ← storedPositive item.isoWeek "iso_week"
  let inputTokens ← storedCount item.reservationInputTokens "reservation_input_tokens"
  let outputTokens ← storedCount item.reservationOutputTokens "reservation_output_tokens"
  let stateVersion ← storedPositive item.reservationStateVersion "reservation_state_version"
  match ZurichWeek.modelValidate env.zone item.toWeekFields with
  | .error _ => .error "malformed allowance effect"
  | .ok week => .ok {
      reservationId := item.reservationId
      effectId := item.effectId
      beneficiaryId := item.beneficiaryId
      planId := item.planId
      allowanceVersion, week, inputTokens, outputTokens, stateVersion
      expiresAt := item.expiresAt }

def validatedEffect (item : EffectRow) (beneficiary : Text) (effect : Sha256) :
    Except String EffectRow := do
  if item.entityType ≠ "allowance_effect" ∨
      item.schemaVersion ≠ ALLOWANCE_EFFECT_SCHEMA_VERSION ∨
      item.beneficiaryId ≠ beneficiary ∨ item.effectId ≠ effect then
    .error "malformed allowance effect"
  else
    let _ ← storedPositive item.stateVersion "state_version"
    let _ ← storedPositive item.accountFenceGeneration "account_fence_generation"
    let _ ← storedPositive item.isoYear "iso_year"
    let _ ← storedPositive item.isoWeek "iso_week"
    let _ ← reservationFromEffect env item.toReservedEffect
    return item

def classifyReservation (item : EffectRow) (beneficiary : Text) (effect : Sha256)
    (payloadDigest : Sha256) : ReservationResult env.zone :=
  match validatedEffect env item beneficiary effect with
  | .error _ => ⟨.retryable, none⟩
  | .ok effect =>
      match reservationFromEffect env effect.toReservedEffect with
      | .error _ => ⟨.retryable, none⟩
      | .ok reservation =>
          if effect.reservationPayloadDigest = payloadDigest then ⟨.replayed, some reservation⟩
          else ⟨.idempotencyConflict, some reservation⟩

def evidenceFromItem (item : EvidenceRow) : Except String ProviderUsageEvidence := do
  if item.entityType ≠ "provider_usage_evidence" ∨
      item.schemaVersion ≠ PROVIDER_USAGE_EVIDENCE_SCHEMA_VERSION then
    .error "malformed provider usage evidence"
  else if item.providerCostRetained ≠ true then
    .error "malformed provider usage evidence"
  else
    let inputTokens ← storedCount item.inputTokens "input_tokens"
    let outputTokens ← storedCount item.outputTokens "output_tokens"
    return {
      evidenceId := item.evidenceId
      effectId := item.effectId
      providerRequestIdDigest := item.providerRequestIdDigest
      modelIdDigest := item.modelIdDigest
      inputTokens, outputTokens
      providerCostRetained := item.providerCostRetained
      observedAt := item.observedAt }

def classifyProviderEvidence (item : EvidenceRow) (payloadDigest : Sha256) :
    ProviderUsageResult :=
  match evidenceFromItem item with
  | .error _ => ⟨.retryable, none⟩
  | .ok evidence =>
      if item.providerPayloadDigest = payloadDigest then ⟨.replayed, some evidence⟩
      else ⟨.idempotencyConflict, some evidence⟩

def finalizationFromEffect (item : EffectRow) : Except String AllowanceFinalization := do
  match item.finalized, item.observed with
  | some done, some observed =>
      let finalizedInputTokens ← storedCount done.finalizedInputTokens "finalized_input_tokens"
      let finalizedOutputTokens ←
        storedCount done.finalizedOutputTokens "finalized_output_tokens"
      let restoredInputTokens ← storedCount done.restoredInputTokens "restored_input_tokens"
      let restoredOutputTokens ← storedCount done.restoredOutputTokens "restored_output_tokens"
      let stateVersion ← storedPositive item.stateVersion "state_version"
      if h : if done.flags.delivered then restoredInputTokens.val + restoredOutputTokens.val = 0
          else finalizedInputTokens.val + finalizedOutputTokens.val = 0 then
        return {
          reservationId := item.reservationId
          evidenceId := observed.evidenceId
          finalizedInputTokens, finalizedOutputTokens
          restoredInputTokens, restoredOutputTokens
          providerCostRetained := done.providerCostRetained
          flags := done.flags
          stateVersion
          finalizedAt := done.finalizedAt
          user_debit_outcome := h }
      else .error "malformed allowance finalization"
  | none, _ => .error "malformed provider_cost_retained"
  | some _, none => .error "malformed allowance finalization"

def classifyFinalization (item : EffectRow) (payloadDigest : Sha256) : FinalizationResult :=
  match finalizationFromEffect item, item.finalized with
  | .ok finalization, some done =>
      if done.finalizationPayloadDigest = payloadDigest then ⟨.replayed, some finalization⟩
      else ⟨.idempotencyConflict, some finalization⟩
  | .error _, _ => ⟨.retryable, none⟩
  | .ok _, none => ⟨.retryable, none⟩

/-! ## Conditional writes -/

def putReplace (beneficiary : Text) (effect : Sha256) (item : EffectRow)
    (expectedStateVersion : ℤ) (expectedState : EffectState) : Write Key Row :=
  .put (.effect beneficiary effect) item fun stored =>
    stored.any fun (row : EffectRow) =>
      row.stateVersion = expectedStateVersion ∧ row.state = expectedState

def fenceCheck (beneficiary : Text) (generation : ℤ) : Write Key Row :=
  .check (.accountFence beneficiary) (activeFenceCondition (some generation))

/-- What an attempt makes of a race it lost: `weekly_counter.retry` runs it again. -/
abbrev Attempt (α : Type) := Program Key Row (Option (Except Failure α))

/-- An attempt that returns. -/
def done {α : Type} (result : α) : Attempt α := .ret (some (.ok result))

def DEFAULT_ATTEMPTS : ℕ := 4

/-! ## Reserving -/

structure ReserveRequest where
  beneficiaryId : String
  effectId : String
  week : ZurichWeek env.zone
  budget : PlanAllowanceBudget
  inputTokens : ℤ
  outputTokens : ℤ
  observedAt : Instant
  accountFenceGeneration : Option ℤ

/-- The arguments of `reserve_allowance` once they are checked. -/
structure Reserve where
  beneficiary : Text
  effect : Sha256
  week : ZurichWeek env.zone
  budget : PlanAllowanceBudget
  requestedInput : Count
  requestedOutput : Count
  now : Instant
  accountFenceGeneration : Option ℤ
  at_least_one : requestedInput.val + requestedOutput.val ≠ 0

variable {env}

def ReserveRequest.checked (r : ReserveRequest env) : Except Failure (Reserve env) := do
  let beneficiary ← requiredText r.beneficiaryId "beneficiary_id"
  let effect ← sha256 r.effectId "effect_id"
  let requestedInput ← exactCount r.inputTokens "input_tokens"
  let requestedOutput ← exactCount r.outputTokens "output_tokens"
  if h : requestedInput.val + requestedOutput.val = 0 then
    .error (.valueError "a reservation must request at least one token")
  else
    return {
      beneficiary, effect, requestedInput, requestedOutput
      week := r.week
      budget := r.budget
      now := r.observedAt
      accountFenceGeneration := r.accountFenceGeneration
      at_least_one := h }

namespace Reserve

def digest (v : Reserve env) : Sha256 :=
  env.payloadDigest (.reservation v.beneficiary v.effect v.week.identity v.budget.planId
    v.budget.allowanceVersion.val v.budget.inputTokens.val v.budget.outputTokens.val
    v.requestedInput.val v.requestedOutput.val)

/-- The request alone exceeds the budget it comes with. -/
def OverBudget (v : Reserve env) : Prop :=
  v.requestedInput.val > v.budget.inputTokens.val ∨
    v.requestedOutput.val > v.budget.outputTokens.val

instance (v : Reserve env) : Decidable v.OverBudget := inferInstanceAs (Decidable (_ ∨ _))

def nextEffect (v : Reserve env) (generation nextVersion : ℤ) : EffectRow where
  toWeekFields := v.week.toWeekFields
  entityType := "allowance_effect"
  schemaVersion := ALLOWANCE_EFFECT_SCHEMA_VERSION
  reservationId := v.effect
  effectId := v.effect
  beneficiaryId := v.beneficiary
  planId := v.budget.planId
  allowanceVersion := v.budget.allowanceVersion.val
  weekIdentity := v.week.identity
  reservationInputTokens := v.requestedInput.val
  reservationOutputTokens := v.requestedOutput.val
  reservationStateVersion := nextVersion
  reservationPayloadDigest := v.digest
  state := .reserved
  stateVersion := 1
  accountFenceGeneration := generation
  createdAt := v.now
  updatedAt := v.now
  expiresAt := v.week.windowEnd
  observed := none
  finalized := none

/-- The effect and the counter that a reservation writes. -/
structure Plan where
  effect : EffectRow
  counter : CounterWrite TokenField TokenFields

/-- What an attempt does with the counter it has read: return early, or write. -/
def plan (v : Reserve env) (generation : Version)
    (counter : Option (LedgerCounter v.beneficiary v.week.toWeekFields)) :
    Except (Except Failure (ReservationResult env.zone)) Plan :=
  let count (field : TokenField) : ℤ := counter.elim 0 fun c => c.count field
  let inputUsed := count .finalizedInputTokens + count .reservedInputTokens
  let outputUsed := count .finalizedOutputTokens + count .reservedOutputTokens
  if inputUsed > MAX_EXACT_COUNT ∨ outputUsed > MAX_EXACT_COUNT then
    .error (.ok ⟨.retryable, none⟩)
  else if counter.any fun c => v.budget.allowanceVersion.val < c.fields.allowanceVersion then
    .error (.ok ⟨.retryable, none⟩)
  else if counter.any fun c => v.budget.allowanceVersion.val = c.fields.allowanceVersion ∧
      (c.fields.planId ≠ v.budget.planId ∨
        c.fields.budgetInputTokens ≠ v.budget.inputTokens.val ∨
        c.fields.budgetOutputTokens ≠ v.budget.outputTokens.val) then
    .error (.ok ⟨.retryable, none⟩)
  else if inputUsed + v.requestedInput.val > v.budget.inputTokens.val ∨
      outputUsed + v.requestedOutput.val > v.budget.outputTokens.val then
    .error (.ok ⟨.limitExceeded, none⟩)
  else
    let nextVersion := previousVersion (counter.map (·.counter)) + 1
    if ¬ IsPositive nextVersion then .error (.error (.validationError "stateVersion"))
    else
      match write TOKENS v.beneficiary.val v.week.toWeekFields (counter.map (·.counter))
          [(.reservedInputTokens, count .reservedInputTokens + v.requestedInput.val),
            (.reservedOutputTokens, count .reservedOutputTokens + v.requestedOutput.val)]
          (some {
            planId := v.budget.planId
            allowanceVersion := v.budget.allowanceVersion.val
            budgetInputTokens := v.budget.inputTokens.val
            budgetOutputTokens := v.budget.outputTokens.val
            accountFenceGeneration := generation.val }) v.now with
      | .error failure => .error (.error failure)
      | .ok counter => .ok ⟨v.nextEffect generation.val nextVersion, counter⟩

def operations (v : Reserve env) (generation : Version) (plan : Plan) : List (Write Key Row) :=
  [fenceCheck v.beneficiary generation.val,
    .putNew (.effect v.beneficiary v.effect) plan.effect,
    .put (.counter v.beneficiary v.week.identity) plan.counter.item plan.counter.condition]

def classify (v : Reserve env) (item : EffectRow) : ReservationResult env.zone :=
  classifyReservation env item v.beneficiary v.effect v.digest

def attempt (v : Reserve env) (generation : Version) : Attempt (ReservationResult env.zone) :=
  .read (.effect v.beneficiary v.effect) fun
    | none => done ⟨.retryable, none⟩
    | some (some existing) => done (v.classify existing)
    | some none =>
      .read (.counter v.beneficiary v.week.identity) fun answer =>
        match readCounter v.beneficiary v.week.toWeekFields answer with
        | .error _ => done ⟨.retryable, none⟩
        | .ok counter =>
          match v.plan generation counter with
          | .error result => .ret (some result)
          | .ok plan =>
            .transact (v.operations generation plan) fun
              | true =>
                match reservationFromEffect env plan.effect.toReservedEffect with
                | .error _ => .ret (some (.error (.validationError "reservation")))
                | .ok reservation => done ⟨.admitted, some reservation⟩
              | false =>
                .read (.effect v.beneficiary v.effect) fun
                  | none => done ⟨.retryable, none⟩
                  | some (some raced) => done (v.classify raced)
                  | some none => .ret none

/-- Everything after the first look at the effect. -/
def attempts (v : Reserve env) (generation : ℤ) :
    Program Key Row (Except Failure (ReservationResult env.zone)) :=
  match exactPositive generation "account_fence_generation" with
  | .error _ => .ret (.ok ⟨.retryable, none⟩)
  | .ok generation => .retry (v.attempt generation) (.ok ⟨.retryable, none⟩) DEFAULT_ATTEMPTS

def run (v : Reserve env) : Program Key Row (Except Failure (ReservationResult env.zone)) :=
  if v.OverBudget then .ret (.ok ⟨.limitExceeded, none⟩)
  else
    .read (.effect v.beneficiary v.effect) fun
      | none => .ret (.ok ⟨.retryable, none⟩)
      | some (some existing) => .ret (.ok (v.classify existing))
      | some none =>
        match v.accountFenceGeneration with
        | some generation => v.attempts generation
        | none =>
          .read (.accountFence v.beneficiary) fun
            -- A read of the fence that raises is not caught here.
            | none => .ret (.error .tableError)
            | some fence =>
              match requireActiveAccountFence fence none with
              | none => .ret (.ok ⟨.retryable, none⟩)
              | some generation => v.attempts generation

end Reserve

def reserveAllowance (r : ReserveRequest env) :
    Program Key Row (Except Failure (ReservationResult env.zone)) :=
  match r.checked with
  | .error failure => .ret (.error failure)
  | .ok v => v.run

/-! ## Recording provider usage -/

structure UsageRequest where
  beneficiaryId : String
  effectId : String
  providerRequestIdDigest : String
  modelIdDigest : String
  inputTokens : ℤ
  outputTokens : ℤ
  observedAt : Instant

/-- The arguments of `_record_usage` once they are checked. -/
structure Usage where
  beneficiary : Text
  effect : Sha256
  requestDigest : Sha256
  providerModelDigest : Sha256
  actualInput : Count
  actualOutput : Count
  now : Instant
  unknownCost : Bool

def UsageRequest.checked (r : UsageRequest) : Except Failure Usage := do
  let beneficiary ← requiredText r.beneficiaryId "beneficiary_id"
  let effect ← sha256 r.effectId "effect_id"
  let requestDigest ← sha256 r.providerRequestIdDigest "provider_request_id_digest"
  let providerModelDigest ← sha256 r.modelIdDigest "model_id_digest"
  let actualInput ← exactCount r.inputTokens "input_tokens"
  let actualOutput ← exactCount r.outputTokens "output_tokens"
  return { beneficiary, effect, requestDigest, providerModelDigest, actualInput, actualOutput
           now := r.observedAt, unknownCost := false }

namespace Usage

variable (env)

def evidenceKey (u : Usage) : Key := .providerUsage u.beneficiary (env.evidenceId u.effect)

def costBasis (u : Usage) : Option String :=
  if u.unknownCost then some "unknown_cost" else none

def digest (u : Usage) : Sha256 :=
  env.payloadDigest (.providerUsage u.beneficiary u.effect u.requestDigest
    u.providerModelDigest u.actualInput.val u.actualOutput.val u.costBasis)

def evidenceItem (u : Usage) (weekIdentity : String) : EvidenceRow where
  entityType := "provider_usage_evidence"
  schemaVersion := PROVIDER_USAGE_EVIDENCE_SCHEMA_VERSION
  evidenceId := env.evidenceId u.effect
  effectId := u.effect
  beneficiaryId := u.beneficiary
  weekIdentity := weekIdentity
  providerRequestIdDigest := u.requestDigest
  modelIdDigest := u.providerModelDigest
  inputTokens := u.actualInput.val
  outputTokens := u.actualOutput.val
  providerCostRetained := true
  providerPayloadDigest := u.digest env
  observedAt := u.now
  costBasis := u.costBasis

def nextEffect (u : Usage) (current : EffectRow) : EffectRow :=
  { current with
    state := .observed
    stateVersion := current.stateVersion + 1
    updatedAt := u.now
    observed := some {
      evidenceId := env.evidenceId u.effect
      providerInputTokens := u.actualInput.val
      providerOutputTokens := u.actualOutput.val
      providerPayloadDigest := u.digest env
      providerObservedAt := u.now } }

/-- The evidence, the effect and the counter that an observation writes. -/
structure Plan where
  evidence : EvidenceRow
  effect : EffectRow
  counter : CounterWrite TokenField TokenFields

def plan (u : Usage) (current : EffectRow) (week : WeekFields)
    (counter : LedgerCounter u.beneficiary week) :
    Except (Except Failure ProviderUsageResult) Plan :=
  let nextInput := counter.count .providerCostInputTokens + u.actualInput.val
  let nextOutput := counter.count .providerCostOutputTokens + u.actualOutput.val
  if nextInput > MAX_EXACT_COUNT ∨ nextOutput > MAX_EXACT_COUNT then
    .error (.ok ⟨.retryable, none⟩)
  else
    match write TOKENS u.beneficiary.val week (some counter.counter)
        [(.providerCostInputTokens, nextInput), (.providerCostOutputTokens, nextOutput)]
        none u.now with
    | .error failure => .error (.error failure)
    | .ok counter => .ok ⟨u.evidenceItem env current.weekIdentity, u.nextEffect env current, counter⟩

def operations (u : Usage) (current : EffectRow) (week : WeekFields) (plan : Plan) :
    List (Write Key Row) :=
  [fenceCheck u.beneficiary current.accountFenceGeneration,
    .putNew (.providerUsage u.beneficiary (env.evidenceId u.effect)) plan.evidence,
    putReplace u.beneficiary u.effect plan.effect current.stateVersion .reserved,
    .put (.counter u.beneficiary week.identity) plan.counter.item plan.counter.condition]

def classify (u : Usage) (item : EvidenceRow) : ProviderUsageResult :=
  classifyProviderEvidence item (u.digest env)

/-- An attempt on a `reserved` effect whose week is `week`. -/
def observe (u : Usage) (current : EffectRow) (week : WeekFields) :
    Attempt ProviderUsageResult :=
  .read (.counter u.beneficiary week.identity) fun answer =>
    match readCounter u.beneficiary week answer with
    | .error _ => done ⟨.retryable, none⟩
    | .ok none => done ⟨.retryable, none⟩
    | .ok (some counter) =>
      match u.plan env current week counter with
      | .error result => .ret (some result)
      | .ok plan =>
        .transact (u.operations env current week plan) fun
          | true =>
            match evidenceFromItem plan.evidence with
            | .error _ => .ret (some (.error (.validationError "evidence")))
            | .ok evidence => done ⟨.recorded, some evidence⟩
          | false =>
            .read (.providerUsage u.beneficiary (env.evidenceId u.effect)) fun
              | none => done ⟨.retryable, none⟩
              | some (some raced) => done (u.classify env raced)
              | some none => .ret none

def attempt (u : Usage) : Attempt ProviderUsageResult :=
  .read (.effect u.beneficiary u.effect) fun
    | none => done ⟨.retryable, none⟩
    | some none => done ⟨.invalidState, none⟩
    | some (some raw) =>
      match validatedEffect env raw u.beneficiary u.effect with
      | .error _ => done ⟨.retryable, none⟩
      | .ok current =>
        if current.state ≠ .reserved then
          .read (.providerUsage u.beneficiary (env.evidenceId u.effect)) fun
            | none => done ⟨.retryable, none⟩
            | some (some existing) => done (u.classify env existing)
            | some none => done ⟨.invalidState, none⟩
        else
          match ZurichWeek.modelValidate env.zone current.toWeekFields with
          | .error _ => done ⟨.retryable, none⟩
          | .ok week =>
            if current.weekIdentity ≠ week.identity then done ⟨.retryable, none⟩
            else u.observe env current week.toWeekFields

/-- `_record_usage` -/
def run (u : Usage) : Program Key Row (Except Failure ProviderUsageResult) :=
  .read (.providerUsage u.beneficiary (env.evidenceId u.effect)) fun
    | none => .ret (.ok ⟨.retryable, none⟩)
    | some (some existing) => .ret (.ok (u.classify env existing))
    | some none => .retry (u.attempt env) (.ok ⟨.retryable, none⟩) DEFAULT_ATTEMPTS

end Usage

variable (env) in
def recordProviderUsage (r : UsageRequest) : Program Key Row (Except Failure ProviderUsageResult) :=
  match r.checked with
  | .error failure => .ret (.error failure)
  | .ok u => u.run env

/-! ## Finalizing and restoring -/

structure CompletionRequest where
  beneficiaryId : String
  effectId : String
  flags : DeliveryFlags
  finalizedAt : Instant

/-- The arguments of `_complete_allowance` once they are checked. -/
structure Completion where
  beneficiary : Text
  effect : Sha256
  restore : Bool
  flags : DeliveryFlags
  now : Instant
  outcome : restore ≠ flags.delivered

def CompletionRequest.checked (r : CompletionRequest) (restore : Bool) :
    Except Failure Completion := do
  let beneficiary ← requiredText r.beneficiaryId "beneficiary_id"
  let effect ← sha256 r.effectId "effect_id"
  if h : restore = r.flags.delivered then
    .error (.valueError "delivered results must finalize and undelivered results must restore")
  else
    return { beneficiary, effect, restore, flags := r.flags, now := r.finalizedAt, outcome := h }

namespace Completion

variable (env)

def digest (c : Completion) : Sha256 :=
  env.payloadDigest <|
    if c.restore then .restoration c.beneficiary c.effect c.flags
    else .finalization c.beneficiary c.effect c.flags

def finalizedInput (c : Completion) (evidence : ProviderUsageEvidence) : ℤ :=
  if c.restore then 0 else evidence.inputTokens.val

def finalizedOutput (c : Completion) (evidence : ProviderUsageEvidence) : ℤ :=
  if c.restore then 0 else evidence.outputTokens.val

def restoredInput (c : Completion) (current : EffectRow) : ℤ :=
  if c.restore then current.reservationInputTokens else 0

def restoredOutput (c : Completion) (current : EffectRow) : ℤ :=
  if c.restore then current.reservationOutputTokens else 0

def nextEffect (c : Completion) (current : EffectRow) (evidence : ProviderUsageEvidence) :
    EffectRow :=
  { current with
    state := if c.restore then .restored else .finalized
    stateVersion := current.stateVersion + 1
    updatedAt := c.now
    finalized := some {
      finalizedInputTokens := c.finalizedInput evidence
      finalizedOutputTokens := c.finalizedOutput evidence
      restoredInputTokens := c.restoredInput current
      restoredOutputTokens := c.restoredOutput current
      providerCostRetained := true
      flags := c.flags
      finalizationPayloadDigest := c.digest env
      finalizedAt := c.now
      restoredAt := if c.restore then some c.now else none } }

/-- The effect and the counter that a completion writes. -/
structure Plan where
  effect : EffectRow
  counter : CounterWrite TokenField TokenFields

def plan (c : Completion) (current : EffectRow) (week : WeekFields)
    (counter : LedgerCounter c.beneficiary week) (evidence : ProviderUsageEvidence) :
    Except (Except Failure FinalizationResult) Plan :=
  let nextFinalizedInput := counter.count .finalizedInputTokens + c.finalizedInput evidence
  let nextFinalizedOutput := counter.count .finalizedOutputTokens + c.finalizedOutput evidence
  if (¬ c.restore ∧ (evidence.inputTokens.val > current.reservationInputTokens ∨
        evidence.outputTokens.val > current.reservationOutputTokens)) ∨
      counter.count .reservedInputTokens < current.reservationInputTokens ∨
      counter.count .reservedOutputTokens < current.reservationOutputTokens then
    .error (.ok ⟨.invalidState, none⟩)
  else if nextFinalizedInput > MAX_EXACT_COUNT ∨ nextFinalizedOutput > MAX_EXACT_COUNT then
    .error (.ok ⟨.retryable, none⟩)
  else
    match write TOKENS c.beneficiary.val week (some counter.counter)
        [(.reservedInputTokens,
            counter.count .reservedInputTokens - current.reservationInputTokens),
          (.reservedOutputTokens,
            counter.count .reservedOutputTokens - current.reservationOutputTokens),
          (.finalizedInputTokens, nextFinalizedInput),
          (.finalizedOutputTokens, nextFinalizedOutput)] none c.now with
    | .error failure => .error (.error failure)
    | .ok counter => .ok ⟨c.nextEffect env current evidence, counter⟩

def operations (c : Completion) (current : EffectRow) (week : WeekFields) (plan : Plan) :
    List (Write Key Row) :=
  [fenceCheck c.beneficiary current.accountFenceGeneration,
    putReplace c.beneficiary c.effect plan.effect current.stateVersion .observed,
    .put (.counter c.beneficiary week.identity) plan.counter.item plan.counter.condition]

def IsSettled (state : EffectState) : Prop := state = .finalized ∨ state = .restored

instance (state : EffectState) : Decidable (IsSettled state) :=
  inferInstanceAs (Decidable (_ ∨ _))

def classify (c : Completion) (item : EffectRow) : FinalizationResult :=
  classifyFinalization item (c.digest env)

/-- An attempt on an `observed` effect whose week is `week`. -/
def settle (c : Completion) (current : EffectRow) (week : WeekFields) :
    Attempt FinalizationResult :=
  .read (.counter c.beneficiary week.identity) fun answer =>
    match readCounter c.beneficiary week answer, current.observed with
    | .error _, _ => done ⟨.retryable, none⟩
    | .ok _, none => done ⟨.retryable, none⟩
    | .ok counter, some observed =>
      .read (.providerUsage c.beneficiary observed.evidenceId) fun
        | none => done ⟨.retryable, none⟩
        | some none => done ⟨.retryable, none⟩
        | some (some item) =>
          match counter, evidenceFromItem item with
          | none, _ => done ⟨.retryable, none⟩
          | some _, .error _ => done ⟨.retryable, none⟩
          | some counter, .ok evidence =>
            match c.plan env current week counter evidence with
            | .error result => .ret (some result)
            | .ok plan =>
              .transact (c.operations current week plan) fun
                | true =>
                  match finalizationFromEffect plan.effect with
                  | .error _ => .ret (some (.error (.validationError "finalization")))
                  | .ok finalization =>
                    done ⟨if c.restore then .restored else .finalized, some finalization⟩
                | false =>
                  .read (.effect c.beneficiary c.effect) fun
                    | none => done ⟨.retryable, none⟩
                    | some none => .ret none
                    | some (some raced) =>
                      if IsSettled raced.state then done (c.classify env raced) else .ret none

def attempt (c : Completion) : Attempt FinalizationResult :=
  .read (.effect c.beneficiary c.effect) fun
    | none => done ⟨.retryable, none⟩
    | some none => done ⟨.invalidState, none⟩
    | some (some raw) =>
      match validatedEffect env raw c.beneficiary c.effect with
      | .error _ => done ⟨.retryable, none⟩
      | .ok current =>
        if IsSettled current.state then done (c.classify env current)
        else if current.state ≠ .observed then done ⟨.invalidState, none⟩
        else
          match ZurichWeek.modelValidate env.zone current.toWeekFields with
          | .error _ => done ⟨.retryable, none⟩
          | .ok week =>
            if current.weekIdentity ≠ week.identity then done ⟨.retryable, none⟩
            else c.settle env current week.toWeekFields

/-- `_complete_allowance` -/
def run (c : Completion) : Program Key Row (Except Failure FinalizationResult) :=
  .retry (c.attempt env) (.ok ⟨.retryable, none⟩) DEFAULT_ATTEMPTS

end Completion

variable (env) in
def completeAllowance (r : CompletionRequest) (restore : Bool) :
    Program Key Row (Except Failure FinalizationResult) :=
  match r.checked restore with
  | .error failure => .ret (.error failure)
  | .ok c => c.run env

variable (env) in
def finalizeAllowance (r : CompletionRequest) : Program Key Row (Except Failure FinalizationResult) :=
  completeAllowance env r false

variable (env) in
def restoreAllowance (r : CompletionRequest) : Program Key Row (Except Failure FinalizationResult) :=
  completeAllowance env r true

/-! ## Releasing -/

structure ReleaseRequest where
  beneficiaryId : String
  effectId : String
  releasedAt : Instant

/-- The arguments of `release_unknown_cost` once they are checked. -/
structure Release where
  beneficiary : Text
  effect : Sha256
  now : Instant

def ReleaseRequest.checked (r : ReleaseRequest) : Except Failure Release := do
  let beneficiary ← requiredText r.beneficiaryId "beneficiary_id"
  let effect ← sha256 r.effectId "effect_id"
  return { beneficiary, effect, now := r.releasedAt }

namespace Release

variable (env)

/-- The usage recorded for a reservation whose cost will never be known. -/
def usage (v : Release) (reservedInput reservedOutput : Count) : Usage where
  beneficiary := v.beneficiary
  effect := v.effect
  requestDigest := env.payloadDigest (.unknownCost v.effect)
  providerModelDigest := env.payloadDigest (.unknownCost v.effect)
  actualInput := reservedInput
  actualOutput := reservedOutput
  now := v.now
  unknownCost := true

def completion (v : Release) : Completion where
  beneficiary := v.beneficiary
  effect := v.effect
  restore := true
  flags := ⟨false, false, false, false⟩
  now := v.now
  outcome := by decide

def giveBack (v : Release) : Program Key Row (Except Failure ReleaseDisposition) :=
  (v.completion.run env).bind fun
    | .error failure => .ret (.error failure)
    | .ok restored =>
      match restored.disposition with
      | .restored => .ret (.ok .released)
      | .replayed => .ret (.ok .released)
      | .retryable => .ret (.ok .retryable)
      | .finalized => .ret (.ok .invalidState)
      | .idempotencyConflict => .ret (.ok .invalidState)
      | .invalidState => .ret (.ok .invalidState)

def run (v : Release) : Program Key Row (Except Failure ReleaseDisposition) :=
  .read (.effect v.beneficiary v.effect) fun
    | none => .ret (.ok .retryable)
    | some none => .ret (.ok .nothingReserved)
    | some (some raw) =>
      match validatedEffect env raw v.beneficiary v.effect with
      | .error _ => .ret (.ok .retryable)
      | .ok current =>
        match storedCount current.reservationInputTokens "reservation_input_tokens",
          storedCount current.reservationOutputTokens "reservation_output_tokens" with
        | .ok reservedInput, .ok reservedOutput =>
          match current.state with
          | .finalized => .ret (.ok .alreadySettled)
          | .restored => .ret (.ok .alreadySettled)
          | .observed => v.giveBack env
          | .reserved =>
            ((v.usage env reservedInput reservedOutput).run env).bind fun
              | .error failure => .ret (.error failure)
              | .ok recorded =>
                match recorded.disposition with
                | .invalidState => .ret (.ok .invalidState)
                | .recorded => v.giveBack env
                | .replayed => v.giveBack env
                | .idempotencyConflict => .ret (.ok .retryable)
                | .retryable => .ret (.ok .retryable)
        | .error _, _ => .ret (.ok .retryable)
        | .ok _, .error _ => .ret (.ok .retryable)

end Release

variable (env) in
def releaseUnknownCost (r : ReleaseRequest) : Program Key Row (Except Failure ReleaseDisposition) :=
  match r.checked with
  | .error failure => .ret (.error failure)
  | .ok v => v.run env

/-! ## The service -/

variable (env) in
inductive Call where
  | reserve (r : ReserveRequest env)
  | record (r : UsageRequest)
  | finalize (r : CompletionRequest)
  | restore (r : CompletionRequest)
  | release (r : ReleaseRequest)

variable (env) in
inductive Result where
  | reservation (result : ReservationResult env.zone)
  | usage (result : ProviderUsageResult)
  | finalization (result : FinalizationResult)
  | release (disposition : ReleaseDisposition)
  | raised (failure : Failure)

variable (env) in
/-- A call whose arguments are checked. -/
inductive Checked where
  | reserve (v : Reserve env)
  | usage (u : Usage)
  | completion (c : Completion)
  | release (v : Release)

def Call.checked : Call env → Except Failure (Checked env)
  | .reserve r => r.checked.map .reserve
  | .record r => r.checked.map .usage
  | .finalize r => (r.checked false).map .completion
  | .restore r => (r.checked true).map .completion
  | .release r => r.checked.map .release

/-- A call's outcome, returned or raised. -/
def Result.of {α : Type} (returned : α → Result env) : Except Failure α → Result env
  | .ok a => returned a
  | .error failure => .raised failure

def Call.body : Call env → Program Key Row (Result env)
  | .reserve r => (reserveAllowance r).bind fun a => .ret (.of .reservation a)
  | .record r => (recordProviderUsage env r).bind fun a => .ret (.of .usage a)
  | .finalize r => (finalizeAllowance env r).bind fun a => .ret (.of .finalization a)
  | .restore r => (restoreAllowance env r).bind fun a => .ret (.of .finalization a)
  | .release r => (releaseUnknownCost env r).bind fun a => .ret (.of .release a)

/-- Other code may write fences, and nothing else of the ledger. -/
def FenceDrift (t t' : Table Key Row) : Prop :=
  ∀ k, (∀ user, k ≠ .accountFence user) → t'.row k = t.row k

/-- Any number of ledger calls against one table. -/
def service (env : Env) (faults : Faults) : Service Key Row (Call env) (Result env) where
  body := Call.body
  mayStart := fun _ _ => True
  drift := FenceDrift
  faults := faults

/-- A table on which no ledger call has run. -/
def Fresh (t : Table Key Row) : Prop :=
  ∀ k, (∀ user, k ≠ .accountFence user) → t.row k = none

end Stoa.Allowance
