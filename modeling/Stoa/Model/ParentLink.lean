import Stoa.Model.Relationships
import Stoa.Store.Handler
import Stoa.Store.Interleaving

/-! # Parent-student links

A link is stored on both sides of a pair, in one transaction. A request is proposed
by one party and confirmed by the other; an administrator assigns and closes. -/

namespace Stoa.ParentLink

open RowStore
open Relationships (usableAccount)

/-! ## Dates of birth -/

def daysInMonth (year month : ℤ) : ℤ :=
  if month = 2 then if year % 4 = 0 ∧ (year % 100 ≠ 0 ∨ year % 400 = 0) then 29 else 28
  else if month = 4 ∨ month = 6 ∨ month = 9 ∨ month = 11 then 30
  else 31

structure Date where
  year : ℤ
  month : ℤ
  day : ℤ
  deriving DecidableEq

/-- The month and day of the `n`-th day of a year, counted from the months given. -/
def monthAndDay (year n : ℤ) : List ℤ → ℤ × ℤ
  | [] => (12, n)
  | month :: rest => if n ≤ daysInMonth year month then (month, n) else monthAndDay year (n - daysInMonth year month) rest

/-- The UTC date of an instant. -/
def dateOf (t : Instant) : Date :=
  let day := ordinal t
  let year := yearOf day
  let (month, day) := monthAndDay year (day - daysBeforeYear year) [1, 2, 3, 4, 5, 6, 7, 8, 9, 10, 11]
  ⟨year, month, day⟩

def Date.before (a b : Date) : Bool :=
  a.year < b.year ∨ (a.year = b.year ∧ (a.month < b.month ∨ (a.month = b.month ∧ a.day < b.day)))

def number (digits : List Char) : Option ℤ :=
  if digits.all fun c => '0' ≤ c ∧ c ≤ '9' then
    some (digits.foldl (fun n c => n * 10 + ((c.toNat : ℤ) - 48)) 0)
  else none

/-- `date.fromisoformat` on the form `YYYY-MM-DD`. -/
def fromisoformat (text : String) : Option Date :=
  match text.toList with
  | [y1, y2, y3, y4, '-', m1, m2, '-', d1, d2] =>
      match number [y1, y2, y3, y4], number [m1, m2], number [d1, d2] with
      | some year, some month, some day =>
          if 1 ≤ year ∧ 1 ≤ month ∧ month ≤ 12 ∧ 1 ≤ day ∧ day ≤ daysInMonth year month then
            some ⟨year, month, day⟩
          else none
      | _, _, _ => none
  | _ => none

def MAX_REGISTRATION_AGE : ℤ := 120

def completedYears (born at_ : Date) : ℤ :=
  at_.year - born.year -
    if at_.month < born.month ∨ (at_.month = born.month ∧ at_.day < born.day) then 1 else 0

/-- `normalize_date_of_birth`, read as a date. -/
def normalizeDateOfBirth (raw : String) (today : Date) : Option Date :=
  match fromisoformat (String.ofList (strip raw.toList)) with
  | none => none
  | some born =>
      if today.before born ∨ MAX_REGISTRATION_AGE < completedYears born today then none else some born

/-- A birthday that cannot be read is that of a minor. -/
def isMinor (dateOfBirth : Option String) (at_ : Instant) (adultAgeYears : ℤ) : Bool :=
  match dateOfBirth.bind (normalizeDateOfBirth · (dateOf at_)) with
  | none => true
  | some born => completedYears born (dateOf at_) < adultAgeYears

/-! ## Rows -/

inductive LinkStatus where
  | pending
  | active
  | rejected
  deriving DecidableEq

inductive Initiator where
  | admin
  | parent
  | student
  deriving DecidableEq

/-- The body that both sides of a pair store. -/
structure Link where
  parentId : String
  studentId : String
  relationship : String
  status : LinkStatus
  initiatorRole : Initiator
  createdBy : String
  linkedAt : Instant
  updatedBy : String
  linkUpdatedAt : Instant
  deriving DecidableEq

structure Profile extends Relationships.ProfileRow where
  dateOfBirth : Option String

def accountIsMinor (profile : Option Profile) (at_ : Instant) (adultAgeYears : ℤ) : Bool :=
  match profile with
  | none => true
  | some profile => isMinor profile.dateOfBirth at_ adultAgeYears

/-- What a transaction on a pair was decided on, for the record: no code reads it.
The profiles are those that were judged for consent. -/
structure Grounds where
  link : Option Link
  parentProfile : Option Profile := none
  studentProfile : Option Profile := none

inductive Key where
  | parentSide (parent student : String)
  | studentSide (student parent : String)
  | profile (user : String)
  | accountFence (user : String)
  | grounds (parent student : String)
  deriving DecidableEq

abbrev Row : Key → Type
  | .parentSide _ _ => Link
  | .studentSide _ _ => Link
  | .profile _ => Profile
  | .accountFence _ => FenceRow
  | .grounds _ _ => List Grounds

inductive ParentLinkErrorCode where
  | linkTargetNotFound
  | linkInitiatorNotAllowed
  | linkNotPending
  | linkConfirmationNotAllowed
  | linkRequiresAdministrator
  | linkConfirmationNotApplicable
  | linkAlreadyActive
  | linkRequestPending
  | linkRequestExpired
  | linkRejectedCooldown (retryAfterSeconds : ℤ) (retryAt : Instant)
  | accountNumberLookupUnavailable
  deriving DecidableEq

inductive Raised where
  | failure (failure : Failure)
  | parentLinkError (code : ParentLinkErrorCode)
  /-- `ParentLinkConflict` -/
  | conflict (reason : String)
  deriving DecidableEq

abbrev Action := Handler Key Row Raised

/-- The setting and the resolver that the service is wired with. -/
structure Wiring where
  adultAgeYears : ℤ
  accountNumberResolver : Option (String → Option String)

/-! ## The repository -/

def required (value field : String) : Except Raised String :=
  (strippedText value field).mapError .failure

def fetch (key : Key) : Action (Option (Row key)) := Handler.get (Raised.failure .tableError) key

def getParentSideLink (parentId studentId : String) : Action (Option Link) := do
  fetch (.parentSide (← .of (required parentId "parent_id")) (← .of (required studentId "student_id")))

def getStudentSideLink (studentId parentId : String) : Action (Option Link) := do
  fetch (.studentSide (← .of (required studentId "student_id")) (← .of (required parentId "parent_id")))

/-- The generation of one participant's account. -/
def participantFence (userId : String) : Action ℤ := do
  match requireActiveAccountFence (← fetch (.accountFence userId)) none with
  | none => throw (.conflict "parent link participant is not writable")
  | some generation => return generation

/-- Both sides of a pair in one transaction, each under its condition. -/
def rewrites (body : Link) (grounds : Grounds) (parentSide studentSide : Option Link → Bool) :
    List (Write Key Row) :=
  [.put (.parentSide body.parentId body.studentId) body parentSide,
    .put (.studentSide body.studentId body.parentId) body studentSide,
    .update (.grounds body.parentId body.studentId)
      (fun earlier : Option (List Grounds) => grounds :: earlier.getD []) fun _ => true]

/-- A transaction that also asserts the fences of both accounts. -/
def fenced (body : Link) (parentGeneration studentGeneration : ℤ) (ops : List (Write Key Row)) :
    List (Write Key Row) :=
  .check (.accountFence body.parentId) (activeFenceCondition (some parentGeneration)) ::
    .check (.accountFence body.studentId) (activeFenceCondition (some studentGeneration)) :: ops

/-- A fenced write of both sides under one condition. -/
def conditionalRewrite (body : Link) (grounds : Grounds) (condition : Option Link → Bool) (refusal : String) :
    Action Link := do
  let parentGeneration ← participantFence body.parentId
  let studentGeneration ← participantFence body.studentId
  if ← .submit (fenced body parentGeneration studentGeneration (rewrites body grounds condition condition)) then
    return body
  else throw (.conflict refusal)

/-- `create_link` -/
def createLink (parentId studentId : String) (status : LinkStatus) (initiatorRole : Initiator) (createdBy : String)
    (linkedAt : Instant) (relationship : String) (grounds : Grounds) : Action Link := do
  let parentId ← .of (required parentId "parent_id")
  let studentId ← .of (required studentId "student_id")
  let relationship ← .of (required relationship "relationship")
  let createdBy ← .of (required createdBy "created_by")
  conditionalRewrite
    { parentId, studentId, relationship, status, initiatorRole, createdBy, linkedAt,
      updatedBy := createdBy, linkUpdatedAt := linkedAt } grounds Option.isNone "parent link already exists"

/-- `_both_sides_stored` -/
def bothSidesStored (parentId studentId : String) : Action (Link × Link) := do
  match ← getParentSideLink parentId studentId, ← getStudentSideLink studentId parentId with
  | some current, some mirror => return (current, mirror)
  | _, _ => throw (.conflict "parent link is not fully stored")

def orElse (value default : String) : String := if value = "" then default else value

/-- `transition_link` -/
def transitionLink (parentId studentId : String) (expectedStatus nextStatus : LinkStatus) (updatedBy : String)
    (linkUpdatedAt : Instant) (grounds : Grounds) : Action Link := do
  let parentId ← .of (required parentId "parent_id")
  let studentId ← .of (required studentId "student_id")
  if expectedStatus = nextStatus then
    throw (.failure (.valueError "link transition must change the status"))
  let (current, mirror) ← bothSidesStored parentId studentId
  if current.status ≠ expectedStatus ∨ mirror.status ≠ expectedStatus then
    throw (.conflict "parent link is no longer in the expected status")
  let updated ← .of (required updatedBy "updated_by")
  conditionalRewrite
    { parentId, studentId, relationship := orElse current.relationship "child", status := nextStatus,
      initiatorRole := current.initiatorRole, createdBy := orElse current.createdBy updatedBy,
      linkedAt := current.linkedAt, updatedBy := updated, linkUpdatedAt } grounds
    (fun stored => stored.any fun side => side.status = expectedStatus) "parent link transition refused"

/-- `reclaim_link` -/
def reclaimLink (parentId studentId : String) (expectedStatus : LinkStatus) (expectedLinkUpdatedAt : Instant)
    (status : LinkStatus) (initiatorRole : Initiator) (createdBy : String) (linkedAt : Instant)
    (relationship : String) (grounds : Grounds) : Action Link := do
  let parentId ← .of (required parentId "parent_id")
  let studentId ← .of (required studentId "student_id")
  if linkedAt = expectedLinkUpdatedAt then
    throw (.failure (.valueError "reclaim must advance link_updated_at"))
  let (current, mirror) ← bothSidesStored parentId studentId
  if current.status ≠ expectedStatus ∨ mirror.status ≠ expectedStatus then
    throw (.conflict "parent link is no longer in the expected status")
  if current.linkUpdatedAt ≠ expectedLinkUpdatedAt ∨ mirror.linkUpdatedAt ≠ expectedLinkUpdatedAt then
    throw (.conflict "parent link changed since it was read")
  let relationship ← .of (required relationship "relationship")
  let createdBy ← .of (required createdBy "created_by")
  conditionalRewrite
    { parentId, studentId, relationship, status, initiatorRole, createdBy, linkedAt,
      updatedBy := createdBy, linkUpdatedAt := linkedAt } grounds
    (fun stored => stored.any fun side =>
      side.status = expectedStatus ∧ side.linkUpdatedAt = expectedLinkUpdatedAt) "parent link reclaim refused"

/-- `_as_read`: a side is still what was read. -/
def asRead (side stored : Option Link) : Bool :=
  match side with
  | none => stored.isNone
  | some side => stored.any fun stored => stored.status = side.status ∧ stored.linkUpdatedAt = side.linkUpdatedAt

/-- `close_link` -/
def closeLink (parentId studentId : String) (parentSide studentSide : Option Link) (updatedBy : String)
    (linkUpdatedAt : Instant) : Action Link := do
  let parentId ← .of (required parentId "parent_id")
  let studentId ← .of (required studentId "student_id")
  match parentSide <|> studentSide with
  | none => throw (.conflict "parent link is not stored")
  | some stored =>
      if parentSide.any (fun side => side.linkUpdatedAt = linkUpdatedAt) ∨
          studentSide.any (fun side => side.linkUpdatedAt = linkUpdatedAt) then
        throw (.failure (.valueError "close must advance link_updated_at"))
      let updated ← .of (required updatedBy "updated_by")
      let body : Link :=
        { parentId, studentId, relationship := orElse stored.relationship "child", status := .rejected,
          initiatorRole := stored.initiatorRole, createdBy := orElse stored.createdBy updatedBy,
          linkedAt := stored.linkedAt, updatedBy := updated, linkUpdatedAt }
      if ← .submit (rewrites body ⟨some stored, none, none⟩ (asRead parentSide) (asRead studentSide)) then
        return body
      else throw (.conflict "parent link close refused")

/-! ## The service -/

def MICROSECONDS_PER_SECOND : ℤ := 1000000

def REJECTED_COOLDOWN : ℤ := 7 * MICROSECONDS_PER_DAY

def PENDING_REQUEST_TTL : ℤ := 14 * MICROSECONDS_PER_DAY

def pendingExpired (link : Link) (at_ : Instant) : Bool := PENDING_REQUEST_TTL ≤ at_ - link.linkUpdatedAt

def cooldownRemaining (link : Link) (at_ : Instant) : ℤ := max 0 (link.linkUpdatedAt + REJECTED_COOLDOWN - at_)

/-- `_settled_pair`: both stored rows, if they agree. -/
def settledPair (parentId studentId : String) : Action (Option Link) := do
  match ← getParentSideLink parentId studentId, ← getStudentSideLink studentId parentId with
  | some forward, some reverse =>
      if forward.status ≠ reverse.status ∨ forward.linkUpdatedAt ≠ reverse.linkUpdatedAt then return none
      else return some forward
  | _, _ => return none

def getUser (userId : String) : Action (Option Profile) := fetch (.profile userId)

def ROLE_PARENT : String := "parent"

def ROLE_STUDENT : String := "student"

/-- `_account` -/
def account (userId role : String) : Action Profile := do
  match ← getUser userId with
  | none => throw (.parentLinkError .linkTargetNotFound)
  | some profile =>
      if usableAccount (some profile.toProfileRow) userId role then return profile
      else throw (.parentLinkError .linkTargetNotFound)

def refuseSelfServiceWhenMinor (wiring : Wiring) (parent student : Option Profile) (at_ : Instant) :
    Except Raised Unit :=
  if accountIsMinor parent at_ wiring.adultAgeYears ∨ accountIsMinor student at_ wiring.adultAgeYears then
    .error (.parentLinkError .linkRequiresAdministrator)
  else .ok ()

structure AssignLink where
  parentId : String
  studentId : String
  actorId : String
  relationship : String
  now : Instant

def reclaimableForAdmin (link : Link) (at_ : Instant) : Bool :=
  match link.status with
  | .rejected => true
  | .pending => pendingExpired link at_
  | .active => false

/-- `assign_link` -/
def assignLink (r : AssignLink) : Action Link := do
  let _ ← account r.parentId ROLE_PARENT
  let _ ← account r.studentId ROLE_STUDENT
  match ← settledPair r.parentId r.studentId with
  | some settled =>
      if reclaimableForAdmin settled r.now then
        reclaimLink r.parentId r.studentId settled.status settled.linkUpdatedAt .active .admin r.actorId r.now
          r.relationship ⟨some settled, none, none⟩
      else createLink r.parentId r.studentId .active .admin r.actorId r.now r.relationship ⟨some settled, none, none⟩
  | none => createLink r.parentId r.studentId .active .admin r.actorId r.now r.relationship ⟨none, none, none⟩

structure RequestLink where
  requesterId : String
  counterpartId : Option String
  counterpartNumber : Option String
  relationship : String
  now : Instant

/-- `_refuse_unless_reclaimable` -/
def refuseUnlessReclaimable (link : Link) (at_ : Instant) : Except Raised Unit :=
  match link.status with
  | .active => .error (.parentLinkError .linkAlreadyActive)
  | .pending => if pendingExpired link at_ then .ok () else .error (.parentLinkError .linkRequestPending)
  | .rejected =>
      if 0 < cooldownRemaining link at_ then
        .error (.parentLinkError (.linkRejectedCooldown (cooldownRemaining link at_ / MICROSECONDS_PER_SECOND)
          (link.linkUpdatedAt + REJECTED_COOLDOWN)))
      else .ok ()

/-- Who is asked, by id or by account number. -/
def counterpart (wiring : Wiring) (r : RequestLink) : Except Raised String :=
  let target : Except Raised (Option String) := match r.counterpartId with
    | some id => .ok (some id)
    | none =>
        if r.counterpartNumber.getD "" = "" then .error (.parentLinkError .linkTargetNotFound)
        else match wiring.accountNumberResolver with
          | none => .error (.parentLinkError .accountNumberLookupUnavailable)
          | some resolve => .ok (resolve (r.counterpartNumber.getD ""))
  target.bind fun target =>
    if target.getD "" = "" ∨ target.getD "" = r.requesterId then .error (.parentLinkError .linkTargetNotFound)
    else .ok (target.getD "")

/-- A request from either side, once the parties are known. -/
def requestBetween (wiring : Wiring) (r : RequestLink) (parentId studentId : String) (initiatorRole : Initiator) :
    Action Link := do
  let parentProfile ← account parentId ROLE_PARENT
  let studentProfile ← account studentId ROLE_STUDENT
  let () ← .of (refuseSelfServiceWhenMinor wiring (some parentProfile) (some studentProfile) r.now)
  match ← settledPair parentId studentId with
  | some settled =>
      let () ← .of (refuseUnlessReclaimable settled r.now)
      reclaimLink parentId studentId settled.status settled.linkUpdatedAt .pending initiatorRole r.requesterId r.now
        r.relationship ⟨some settled, some parentProfile, some studentProfile⟩
  | none =>
      createLink parentId studentId .pending initiatorRole r.requesterId r.now r.relationship
        ⟨none, some parentProfile, some studentProfile⟩

/-- `request_link` -/
def requestLink (wiring : Wiring) (r : RequestLink) : Action Link := do
  match ← getUser r.requesterId with
  | none => throw (.parentLinkError .linkTargetNotFound)
  | some requester =>
      if requester.role = "" then throw (.parentLinkError .linkTargetNotFound)
      else if requester.role ≠ ROLE_PARENT ∧ requester.role ≠ ROLE_STUDENT then
        throw (.parentLinkError .linkInitiatorNotAllowed)
      let target ← .of (counterpart wiring r)
      if requester.role = ROLE_PARENT then requestBetween wiring r r.requesterId target .parent
      else requestBetween wiring r target r.requesterId .student

/-- `_confirmer_side` -/
def confirmerSide (link : Link) : Except Raised String :=
  match link.initiatorRole with
  | .parent => .ok link.studentId
  | .student => .ok link.parentId
  | .admin => .error (.parentLinkError .linkConfirmationNotApplicable)

/-- `_pending_link` -/
def pendingLink (parentId studentId : String) (at_ : Instant) : Action Link := do
  match ← getParentSideLink parentId studentId with
  | none => throw (.parentLinkError .linkNotPending)
  | some link =>
      if link.status ≠ .pending then throw (.parentLinkError .linkNotPending)
      else if pendingExpired link at_ then throw (.parentLinkError .linkRequestExpired)
      else return link

/-- One party's answer to a request. -/
structure AnswerLink where
  parentId : String
  studentId : String
  actorId : String
  now : Instant

/-- The checks of `_answer_pending` on the request that was read. -/
def mayAnswer (link : Link) (actorId : String) : Except Raised Unit :=
  (confirmerSide link).bind fun confirmer =>
    if actorId ≠ confirmer ∨ actorId = link.createdBy then .error (.parentLinkError .linkConfirmationNotAllowed)
    else .ok ()

/-- `confirm_link` -/
def confirmLink (wiring : Wiring) (r : AnswerLink) : Action Link := do
  let link ← pendingLink r.parentId r.studentId r.now
  let () ← .of (mayAnswer link r.actorId)
  let parentProfile ← getUser r.parentId
  let studentProfile ← getUser r.studentId
  let () ← .of (refuseSelfServiceWhenMinor wiring parentProfile studentProfile r.now)
  transitionLink r.parentId r.studentId .pending .active r.actorId r.now ⟨some link, parentProfile, studentProfile⟩

/-- `reject_link` -/
def rejectLink (r : AnswerLink) : Action Link := do
  let link ← pendingLink r.parentId r.studentId r.now
  let () ← .of (mayAnswer link r.actorId)
  transitionLink r.parentId r.studentId .pending .rejected r.actorId r.now ⟨some link, none, none⟩

def aboutPair (parentId studentId : String) (row : Option Link) : Option Link :=
  row.filter fun row => row.parentId = parentId ∧ row.studentId = studentId

/-- `revoke`: an administrator closes an open link. -/
def revoke (r : AnswerLink) : Action (Option Link) := do
  if r.parentId = "" ∨ r.studentId = "" then return none
  let forward ← getParentSideLink r.parentId r.studentId
  let reverse ← getStudentSideLink r.studentId r.parentId
  let parentSide := aboutPair r.parentId r.studentId forward
  let studentSide := aboutPair r.parentId r.studentId reverse
  if parentSide.any (fun side => side.status = .active) ∨ studentSide.any (fun side => side.status = .active) then
    some <$> closeLink r.parentId r.studentId parentSide studentSide r.actorId r.now
  else return none

/-! ## Calls -/

/-- `setProfile` and `setFence` are what other code does to accounts. -/
inductive Call where
  | assignLink (r : AssignLink)
  | requestLink (r : RequestLink)
  | confirmLink (r : AnswerLink)
  | rejectLink (r : AnswerLink)
  | closeLink (r : AnswerLink)
  | setProfile (user : String) (profile : Profile)
  | setFence (user : String) (fence : FenceRow)

def Call.now : Call → Option Instant
  | .assignLink r => some r.now
  | .requestLink r => some r.now
  | .confirmLink r => some r.now
  | .rejectLink r => some r.now
  | .closeLink r => some r.now
  | .setProfile _ _ => none
  | .setFence _ _ => none

/-- Any number of calls; each reads the clock once after it has started. -/
def service (wiring : Wiring) : Service Key Row Call (Except Raised (Option Link)) where
  body
    | .assignLink r => (some <$> ParentLink.assignLink r : Action _).run
    | .requestLink r => (some <$> ParentLink.requestLink wiring r : Action _).run
    | .confirmLink r => (some <$> ParentLink.confirmLink wiring r : Action _).run
    | .rejectLink r => (some <$> ParentLink.rejectLink r : Action _).run
    | .closeLink r => (revoke r).run
    | .setProfile user profile => (do
        let _ ← .submit [.put (.profile user) profile fun _ => true]
        return none : Action _).run
    | .setFence user fence => (do
        let _ ← .submit [.put (.accountFence user) fence fun _ => true]
        return none : Action _).run
  mayStart clock c := ∀ now ∈ c.now, (clock : ℤ) ≤ now
  drift t t' := t' = t
  faults := ⟨True, True, True⟩

end Stoa.ParentLink
