import Stoa.Model.PasswordCode

/-! # How many password codes are sent

The seconds of the last sends of an account are kept in one row. A send is written
there before its mail goes out, and taken out again if the mail could not be sent. -/

namespace Stoa.SendQuota

open RowStore
open PasswordCode (CodeRow StoreCode Library CODE_TTL_SECONDS)

def SEND_WINDOW_SECONDS : ℕ := 3600

def MAX_SENDS_PER_WINDOW : ℕ := 5

def QUOTA_WRITE_ATTEMPTS : ℕ := 3

/-! ## Rows -/

structure QuotaRow where
  sends : List ℕ
  version : ℕ
  expiresAt : ℕ
  deriving DecidableEq

/-- What becomes of the send of a call. -/
inductive Event where
  | admitted
  | returned
  | delivered
  deriving DecidableEq

/-- `events` notes what the calls have done; no code reads it. -/
inductive Key where
  | quota (userId : String)
  | code (userId : String)
  | events (userId : String)
  deriving DecidableEq

abbrev Row : Key → Type
  | .quota _ => QuotaRow
  | .code _ => CodeRow
  | .events _ => List Event

inductive Raised where
  | failure (failure : Failure)
  | rateLimited
  | deliveryFailed
  deriving DecidableEq

abbrev Action := Handler Key Row Raised

/-- What an account asks for: `now` is what the call reads from the clock. The rest is
what the table and the mail provider answer; attempts are counted down. -/
structure Issue where
  userId : String
  email : String
  code : String
  salt : String
  now : ℕ
  delivered : Bool
  admitRaises : ℕ → Bool := fun _ => false
  releaseRaises : ℕ → Bool := fun _ => false
  storeRaises : Bool := false

structure IssuedCode where
  expiresAt : ℤ
  maskedRecipient : String
  deriving DecidableEq

/-! ## Arguments -/

def requiredUserId (userId : String) : Except Raised String :=
  (strippedText userId "user_id").mapError .failure

def requiredRecipient (email : String) : Except Raised String :=
  (strippedText email "recipient email").mapError .failure

/-- `mask_recipient`, of an address that was stripped. -/
def maskRecipient (address : String) : String :=
  let before := address.toList.takeWhile (· ≠ '@')
  match before, address.toList.drop before.length with
  | head :: rest, _ :: domain =>
      String.ofList (head :: (List.replicate (max rest.length 1) '*' ++ '@' :: domain))
  | _, _ => "***"

/-! ## The window -/

def sendsOf (stored : Option QuotaRow) : List ℕ := (stored.map QuotaRow.sends).getD []

def versionOf (stored : Option QuotaRow) : ℕ := (stored.map QuotaRow.version).getD 0

/-- The second still counts. -/
def isRecent (moment value : ℕ) : Bool := 0 < value ∧ moment < value + SEND_WINDOW_SECONDS

def recentSends (moment : ℕ) (stored : Option QuotaRow) : List ℕ := (sendsOf stored).filter (isRecent moment)

abbrev records (owner : String) (event : Event) : Write Key Row :=
  .update (.events owner) (fun events : Option (List Event) => event :: events.getD []) fun _ => true

abbrev admits (owner : String) (moment : ℕ) (stored : Option QuotaRow) : List (Write Key Row) :=
  [if versionOf stored = 0 then
      .put (.quota owner) ⟨recentSends moment stored ++ [moment], 1, moment + SEND_WINDOW_SECONDS⟩ Option.isNone
    else .modify (.quota owner)
      (fun row : QuotaRow => { row with
        sends := recentSends moment stored ++ [moment]
        version := versionOf stored + 1
        expiresAt := moment + SEND_WINDOW_SECONDS })
      fun row : QuotaRow => row.version = versionOf stored,
    records owner .admitted]

abbrev releases (owner : String) (sentAt : ℕ) (stored : Option QuotaRow) : List (Write Key Row) :=
  [.modify (.quota owner)
      (fun row : QuotaRow => { row with
        sends := (sendsOf stored).erase sentAt
        version := versionOf stored + 1 })
      fun row : QuotaRow => row.version = versionOf stored,
    records owner .returned]

def readQuota (owner : String) : Action (Option QuotaRow) :=
  Handler.get (Raised.failure .tableError) (Key.quota owner)

/-- `admit_send`, with the attempts that are left. -/
def admitSend (r : Issue) (owner : String) : ℕ → Action Unit
  | 0 => throw .rateLimited
  | attempts + 1 => do
    let stored ← readQuota owner
    if MAX_SENDS_PER_WINDOW ≤ (recentSends r.now stored).length then throw .rateLimited
    else if r.admitRaises attempts then throw (.failure .tableError)
    else if ← .submit (admits owner r.now stored) then return ()
    else admitSend r owner attempts

/-- `release_send`, with the attempts that are left. -/
def releaseSend (r : Issue) (owner : String) : ℕ → Action Unit
  | 0 => return ()
  | attempts + 1 => do
    let stored ← readQuota owner
    if versionOf stored = 0 ∨ r.now ∉ sendsOf stored then return ()
    else if r.releaseRaises attempts then return ()
    else if ← .submit (releases owner r.now stored) then return ()
    else releaseSend r owner attempts

/-! ## Issuing a code -/

def Issue.stores (r : Issue) : StoreCode := ⟨r.userId, r.code, r.salt, r.now⟩

/-- `store_code` -/
def storeCode (lib : Library) (r : Issue) (owner : String) : Action ℤ := do
  if r.storeRaises then throw (.failure .tableError)
  else
    let _ ← .submit [.put (.code owner) (r.stores.row lib) fun _ => true]
    return (r.stores.row lib).expiresAt

/-- `issue` -/
def issue (lib : Library) (r : Issue) : Action IssuedCode := do
  let owner ← .of (requiredUserId r.userId)
  let recipient ← .of (requiredRecipient r.email)
  admitSend r owner QUOTA_WRITE_ATTEMPTS
  if r.delivered then
    let _ ← .submit [records owner .delivered]
    let expiresAt ← storeCode lib r owner
    return ⟨expiresAt, maskRecipient recipient⟩
  else
    releaseSend r owner QUOTA_WRITE_ATTEMPTS
    throw .deliveryFailed

/-! ## Service -/

/-- Other code: a code is judged, and the row of a quota may vanish. -/
structure OtherWrites (t t' : Table Key Row) : Prop where
  events : ∀ userId, t'.row (.events userId) = t.row (.events userId)
  quota : ∀ userId, t'.row (.quota userId) = t.row (.quota userId) ∨ t'.row (.quota userId) = none

/-- Any number of calls; each reads the clock as it starts, which shows the seconds
since the epoch. -/
def service (lib : Library) : Service Key Row Issue (Except Raised IssuedCode) where
  body r := (issue lib r).run
  mayStart clock r := r.now = clock ∧ 0 < clock
  drift := OtherWrites
  faults := ⟨True, False, False⟩

abbrev Run := State Key Row Issue (Except Raised IssuedCode)

/-- The step removes the row of a quota. -/
def Deletes (s s' : Run) (userId : String) (row : QuotaRow) : Prop :=
  s'.history = s.history ∧ s.table.row (.quota userId) = some row ∧ s'.table.row (.quota userId) = none

/-- A row is removed only after its expiry. -/
def TimeToLive (s s' : Run) : Prop := ∀ userId row, Deletes s s' userId row → row.expiresAt < s.clock

end Stoa.SendQuota
