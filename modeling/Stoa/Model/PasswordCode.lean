import Stoa.Model.Values
import Stoa.Store.Handler
import Stoa.Store.Interleaving

/-! # Password change codes

One code is outstanding for an account. A presented text is judged against the row
that was read, and a wrong one is charged to that row afterwards. -/

namespace Stoa.PasswordCode

open RowStore

def CODE_DIGITS : ℕ := 6

def CODE_TTL_SECONDS : ℤ := 600

def MAX_VERIFY_ATTEMPTS : ℤ := 5

/-! ## Rows -/

/-- A code as it is stored, with times in seconds since the epoch. -/
structure CodeRow where
  codeDigest : String
  salt : String
  issuedAt : ℤ
  expiresAt : ℤ
  attempts : ℤ
  consumedAt : Option ℤ
  deriving DecidableEq

/-- `judged` notes which row each wrong text was judged against; no code reads it. -/
inductive Key where
  | code (userId : String)
  | judged (userId : String)
  deriving DecidableEq

abbrev Row : Key → Type
  | .code _ => CodeRow
  | .judged _ => List CodeRow

/-- The two rows are of one code. -/
def CodeRow.sameCode (row stored : CodeRow) : Bool :=
  row.salt = stored.salt ∧ row.codeDigest = stored.codeDigest ∧ row.issuedAt = stored.issuedAt

/-- What the module takes from the standard library: the derived digest of a code
under a salt, and which texts are digits. -/
structure Library where
  digest : String → String → String
  isdigit : String → Bool

/-- A write that fails is told from a refused one by the exception alone; both are
`rejected` here. -/
inductive Raised where
  | failure (failure : Failure)
  | rejected
  deriving DecidableEq

inductive Answer where
  | storedUntil (expiresAt : ℤ)
  | accepted
  deriving DecidableEq

abbrev Action := Handler Key Row Raised

def requiredUserId (userId : String) : Except Raised String :=
  (strippedText userId "user_id").mapError .failure

/-! ## Storing a code -/

/-- `now` is what the call has read from the clock. -/
structure StoreCode where
  userId : String
  code : String
  salt : String
  now : ℤ

def StoreCode.row (lib : Library) (r : StoreCode) : CodeRow where
  codeDigest := lib.digest r.code r.salt
  salt := r.salt
  issuedAt := r.now
  expiresAt := r.now + CODE_TTL_SECONDS
  attempts := 0
  consumedAt := none

abbrev stores (lib : Library) (r : StoreCode) (owner : String) : List (Write Key Row) :=
  [.put (.code owner) (r.row lib) fun _ => true]

/-- `store_code` -/
def storeCode (lib : Library) (r : StoreCode) : Action Answer := do
  let owner ← .of (requiredUserId r.userId)
  if ← .submit (stores lib r owner) then return .storedUntil (r.row lib).expiresAt
  else throw (.failure .tableError)

/-! ## Presenting a code -/

structure VerifyAndConsume where
  userId : String
  code : String
  now : ℤ

/-- The presented text has the form of a code, and so has what is stored. -/
def CodeRow.isJudgeable (lib : Library) (stored : CodeRow) (presented : String) : Bool :=
  stored.salt ≠ "" ∧ stored.codeDigest ≠ "" ∧ lib.isdigit presented = true ∧
    presented.length = CODE_DIGITS

abbrev judges (owner : String) (stored : CodeRow) : List (Write Key Row) :=
  [.update (.judged owner) (fun judged : Option (List CodeRow) => stored :: judged.getD []) fun _ => true]

abbrev charges (owner : String) (stored : CodeRow) : List (Write Key Row) :=
  [.modify (.code owner) (fun row : CodeRow => { row with attempts := row.attempts + 1 })
    fun row : CodeRow => row.consumedAt.isNone && row.sameCode stored]

abbrev consumes (owner : String) (stored : CodeRow) (now : ℤ) : List (Write Key Row) :=
  [.modify (.code owner) (fun row : CodeRow => { row with consumedAt := some now })
    fun row : CodeRow => row.consumedAt.isNone && row.sameCode stored &&
      row.attempts < MAX_VERIFY_ATTEMPTS && now < row.expiresAt]

def readCode (owner : String) : Action (Option CodeRow) :=
  Handler.get (Raised.failure .tableError) (Key.code owner)

/-- A wrong text: it is judged, charged, and rejected. -/
def recordFailedAttempt (owner : String) (stored : CodeRow) : Action Answer := do
  let _ ← .submit (judges owner stored)
  let _ ← .submit (charges owner stored)
  throw .rejected

/-- `verify_and_consume` -/
def verifyAndConsume (lib : Library) (v : VerifyAndConsume) : Action Answer := do
  let owner ← .of (requiredUserId v.userId)
  match ← readCode owner with
  | none => throw .rejected
  | some stored =>
      -- A time of zero is no time.
      if stored.consumedAt.any (· ≠ 0) then throw .rejected
      else if MAX_VERIFY_ATTEMPTS ≤ stored.attempts then throw .rejected
      else if stored.isJudgeable lib v.code = false then recordFailedAttempt owner stored
      else if lib.digest v.code stored.salt ≠ stored.codeDigest then recordFailedAttempt owner stored
      else if stored.expiresAt ≤ v.now then throw .rejected
      else if ← .submit (consumes owner stored v.now) then return .accepted
      else throw .rejected

/-! ## Service -/

inductive Call where
  | storeCode (r : StoreCode)
  | verifyAndConsume (v : VerifyAndConsume)

def Call.now : Call → ℤ
  | .storeCode r => r.now
  | .verifyAndConsume v => v.now

/-- Any number of calls; each reads the clock as it starts. -/
def service (lib : Library) : Service Key Row Call (Except Raised Answer) where
  body
    | .storeCode r => (PasswordCode.storeCode lib r).run
    | .verifyAndConsume v => (PasswordCode.verifyAndConsume lib v).run
  mayStart clock c := c.now = clock
  drift t t' := t' = t
  faults := ⟨True, True, True⟩

end Stoa.PasswordCode
