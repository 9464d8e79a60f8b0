import Stoa.Data.Document
import Stoa.Model.TeacherDispatch
import Stoa.Model.TeacherSupport
import Stoa.Store.Handler
import Stoa.Store.Within
import Mathlib.Data.List.Dedup

/-! # Help requests

A student's request for a human teacher: asked once in a conversation, offered to
one teacher at a time, taken and answered by one, or ended without. Every write
of the record is conditional on the version it was read at. -/

namespace Stoa.HelpRequest

open RowStore TeacherDispatch
open TeacherSupport (TeacherSupportAdmissionDisposition TeacherSupportRefundDisposition)

/-! ## Rows -/

/-- `escalation_status` -/
inductive Status where
  | pending
  | inProgress
  | resolved
  | withdrawn
  | expired
  deriving DecidableEq, Repr

/-- `OPEN` -/
def Status.isOpen : Status → Bool
  | pending | inProgress => true
  | resolved | withdrawn | expired => false

inductive DispatchStatus where
  | dispatched
  | noCandidate
  | accepted
  | unassigned
  | revoked
  | withdrawn
  | expired
  deriving DecidableEq, Repr

structure RequestRow where
  conversationId : String
  studentId : String
  accountFenceGeneration : ℤ
  version : ℤ
  status : Status
  escalatedAt : Instant
  createdAt : Instant
  updatedAt : Instant
  subject : String
  grade : String
  escalationMessage : Option String
  teacherId : Option String
  acceptedAt : Option Instant
  firstTeacherActionAt : Option Instant
  resolvedAt : Option Instant
  resolutionNote : Option String
  withdrawnAt : Option Instant
  expiredAt : Option Instant
  dispatchStatus : Option DispatchStatus
  dispatchedTeacherId : Option String
  dispatchId : Option String
  dispatchDeadlineAt : Option Instant
  dispatchAttemptCount : ℤ
  dispatchUpdatedAt : Option Instant
  /-- Not stored, it is empty. -/
  previousDispatchTeacherIds : List String
  noCandidateReason : Option String
  noCandidateSince : Option Instant

/-- What is stored where a conversation's request is. -/
inductive Item where
  | record (row : RequestRow)
  /-- What the deletion of the student's account leaves. -/
  | tombstone

def Item.record? : Item → Option RequestRow
  | record row => some row
  | tombstone => none

structure ConversationRow where
  studentId : String

/-- A teacher's reply. -/
structure NoteRow where
  noteId : String
  conversationId : String
  teacherId : String
  teacherName : String
  content : String
  rich : Option Document
  format : Option String
  createdAt : Instant
  attachmentIds : List String
  studentId : String
  accountFenceGeneration : ℤ

/-- A message in the student's conversation. -/
structure MessageRow where
  messageId : String
  conversationId : String
  studentId : String
  accountFenceGeneration : ℤ
  role : String
  content : String
  createdAt : Instant
  systemEvent : Option String
  escalationMessage : Option String
  rich : Option Document
  format : Option String
  authorName : Option String
  attachmentIds : List String

inductive Key where
  | request (conversationId : String)
  | conversation (conversationId : String)
  | note (conversationId noteId : String)
  | message (conversationId messageId : String)
  /-- The profile of a teacher; students and parents are among the accounts of
  the allowance. -/
  | teacherProfile (userId : String)
  | support (key : TeacherSupport.Key)
  /-- A row of another service that is written along, such as an image of a reply. -/
  | other (name : String)
  deriving DecidableEq

abbrev Row : Key → Type
  | .request _ => Item
  | .conversation _ => ConversationRow
  | .note _ _ => NoteRow
  | .message _ _ => MessageRow
  | .teacherProfile _ => ProfileRow
  | .support key => TeacherSupport.Row key
  | .other _ => String

/-- The rows of the teacher-support allowance. -/
def support : Slice TeacherSupport.Key TeacherSupport.Row Key Row where
  key := .support
  row := fun _ => Equiv.refl _
  covers
    | .support key => some key
    | _ => none
  restrict
    | .support key, item => some ⟨key, item⟩
    | .request _, _ => none
    | .conversation _, _ => none
    | .note _ _, _ => none
    | .message _ _, _ => none
    | .teacherProfile _, _ => none
    | .other _, _ => none
  covers_key := fun _ => rfl
  key_of_covers := by
    rintro (_ | _ | _ | _ | _ | _ | _) k h <;> cases h
    rfl
  restrict_key := fun _ _ => rfl
  restrict_outside := by
    rintro (_ | _ | _ | _ | _ | _ | _) h item
    case support => cases h
    all_goals rfl

def fenceKey (user : String) : Key := .support (.account (.accountFence user))

structure Env where
  dispatch : TeacherDispatch.Env
  support : TeacherSupport.Env

inductive Raised where
  /-- `HelpRequestConflict` -/
  | conflict (detail : String)
  | endingRefused (code : String)
  | endingUnavailable (conversationId : String)
  | unavailable (detail : String)
  /-- `AccountDeletionConflict` -/
  | accountConflict
  /-- `AccountDeletionRowConflict` -/
  | rowConflict
  /-- `AttachmentRepositoryConflict` -/
  | attachmentConflict
  /-- The table's own exception. -/
  | tableError
  | support (failure : Failure)
  deriving DecidableEq, Repr

abbrev Handler (α : Type) := RowStore.Handler Key Row Raised α

/-- `try: x except e: handle(e)` -/
def attempt {α : Type} (x : Handler α) (handle : Raised → Handler α) : Handler α :=
  ExceptT.mk (x.run.bind fun
    | .ok a => .ret (.ok a)
    | .error e => (handle e).run)

/-! ## Reading -/

/-- A text, where it is not empty. -/
def truthy (text : Option String) : Option String := text.filter (· ≠ "")

def get (conversationId : String) : Handler (Option RequestRow) := do
  if conversationId = "" then return none
  let item ← RowStore.Handler.get (.unavailable conversationId) (.request conversationId)
  return item.bind Item.record?

def isRequest : Key → Bool
  | .request _ => true
  | _ => false

def asRecord : (k : Key) × Row k → Option RequestRow
  | ⟨.request _, item⟩ => item.record?
  | _ => none

/-- `list_open` -/
def listOpen : Handler (List RequestRow) := do
  let rows ← RowStore.Handler.list .tableError isRequest
  return (rows.filterMap asRecord).filter (·.status = .pending)

def requireFence (user : String) : Handler ℤ := do
  match requireActiveAccountFence (← RowStore.Handler.get .tableError (fenceKey user)) none with
  | some generation => return generation
  | none => throw .accountConflict

/-- `_expired`, which also is `_deadline_passed`: the two differ on what cannot be
read, and every deadline that is stored can be. -/
def passed (deadline : Option Instant) (now : Instant) : Bool := deadline.any (· ≤ now)

/-- The list without what it repeats, in the order of first occurrence. -/
def distinct (texts : List String) : List String := texts.reverse.dedup.reverse

namespace RequestRow

/-- The teacher who holds the request. -/
def holder (record : RequestRow) : String := record.teacherId.getD ""

/-- The teacher the request is offered to. -/
def offeredTo (record : RequestRow) : String := record.dispatchedTeacherId.getD ""

/-- `_live_offer` -/
def liveOffer (record : RequestRow) (now : Instant) : Bool :=
  record.dispatchStatus = some .dispatched ∧ record.offeredTo ≠ "" ∧
    ¬ passed record.dispatchDeadlineAt now

/-- `_previous`: the teachers recorded, and the one who has let the offer lapse. -/
def previous (record : RequestRow) (now : Instant) : List String :=
  let recorded := distinct (record.previousDispatchTeacherIds.filter (· ≠ ""))
  let lapsed := record.offeredTo
  if lapsed ≠ "" ∧ record.dispatchStatus = some .dispatched ∧
      passed record.dispatchDeadlineAt now ∧ lapsed ∉ recorded then recorded ++ [lapsed]
  else recorded

/-- `holder_or_offered` -/
def holderOrOffered (record : RequestRow) (teacherId : String) : Bool :=
  if record.holder ≠ "" then record.holder = teacherId else record.offeredTo = teacherId

/-- `references_teacher` -/
def referencesTeacher (record : RequestRow) (teacherId : String) : Bool :=
  record.teacherId = some teacherId ∨ record.dispatchedTeacherId = some teacherId ∨
    teacherId ∈ record.previousDispatchTeacherIds

end RequestRow

/-! ## What is told -/

inductive StudentStatus where
  | pending
  | assigned
  | waitingNoTeacher
  | inProgress
  | resolved
  | withdrawn
  | expired
  deriving DecidableEq, Repr

def Status.told : Status → StudentStatus
  | pending => .pending
  | inProgress => .inProgress
  | resolved => .resolved
  | withdrawn => .withdrawn
  | expired => .expired

def studentView (record : RequestRow) (now : Instant) : StudentStatus × String :=
  if record.status ≠ .pending then (record.status.told, record.holder)
  else if record.holder ≠ "" then (.assigned, record.holder)
  else if record.liveOffer now then (.assigned, record.offeredTo)
  else if record.dispatchStatus = some .noCandidate then (.waitingNoTeacher, "")
  else (.pending, "")

inductive Action where
  | read
  | create
  | update
  | respond
  | resolve
  /-- A claim, or any other. -/
  | claim
  deriving DecidableEq, Repr

/-- `_TEACHER_WRITES` -/
def Action.isWrite : Action → Bool
  | .respond | .resolve | .update => true
  | .read | .create | .claim => false

/-- `_TEACHER_READS` -/
def Action.isRead : Action → Bool
  | .read | .create => true
  | .respond | .resolve | .update | .claim => false

/-- `_CLOSED_DISPATCH` -/
def CLOSED_DISPATCH : List DispatchStatus := [.revoked, .withdrawn, .expired]

def teacherMay (record : RequestRow) (teacherId : String) (action : Action) (now : Instant) : Bool :=
  if record.status ∈ [.withdrawn, .expired] ∨ record.dispatchStatus.any (· ∈ CLOSED_DISPATCH) then
    false
  else
    let lapsed := record.dispatchStatus = some .dispatched ∧ passed record.dispatchDeadlineAt now
    if action.isWrite then
      let liveOffer := record.holder = "" ∧ record.status = .pending ∧
        record.dispatchStatus = some .dispatched ∧ record.offeredTo = teacherId ∧
          teacherId ∉ record.previousDispatchTeacherIds ∧ ¬ lapsed
      liveOffer ∨ (record.holder = teacherId ∧ record.status ∈ [.inProgress, .resolved])
    else if action.isRead then
      (if record.holder ≠ "" then record.holder else record.offeredTo) = teacherId ∧
        record.status ∈ [.pending, .inProgress, .resolved] ∧ ¬ lapsed
    else false

/-! ## Writing -/

/-- `active_fence_condition` -/
def activeFence (user : String) (generation : ℤ) : Write Key Row :=
  .check (fenceKey user) (activeFenceCondition (some generation))

/-- `_update_operation`: one update of the record, bound to the version it was
read at. `change` sets and removes fields of the stored record. -/
def updateOperation (record : RequestRow) (change : RequestRow → RequestRow)
    (condition : RequestRow → Bool) : Write Key Row :=
  .modify (.request record.conversationId)
    (fun
      | .record stored => .record { change stored with version := record.version + 1 }
      | .tombstone => .tombstone)
    (fun
      | .record stored => stored.version = record.version ∧ condition stored
      | .tombstone => false)

/-- The student's fence, for writes that put rows in their conversation. -/
def studentFence (record : RequestRow) (fence : Bool) : List (Write Key Row) :=
  if fence then [activeFence record.studentId record.accountFenceGeneration] else []

/-- `_write` -/
def write (record : RequestRow) (change : RequestRow → RequestRow)
    (condition : RequestRow → Bool) (extra : List (Write Key Row)) (fence : Bool) :
    Handler RequestRow := do
  if fence ∧ record.accountFenceGeneration ≤ 0 then throw .accountConflict
  let done ← RowStore.Handler.submit (studentFence record fence ++
    updateOperation record change condition :: extra)
  if done then return { change record with version := record.version + 1 }
  else throw (.conflict "help request changed before the write")

/-- Pending, and nobody holds it. -/
def RequestRow.isFree (stored : RequestRow) : Bool :=
  stored.status = .pending ∧ stored.teacherId = none

/-- `teacher_assignment_conditions` -/
def teacherAssignmentConditions (teacherId role : String) (generation version : ℤ) :
    List (Write Key Row) := [
  activeFence teacherId generation,
  .check (.teacherProfile teacherId) (Option.any fun profile =>
    profile.userId = teacherId ∧ profile.role = role ∧ profile.accountStatus = "active" ∧
      profile.version = version)]

/-! ## Offering -/

variable (env : Env)

def isTeacherProfile : Key → Bool
  | .teacherProfile _ => true
  | _ => false

/-- The profiles that may be planned with, each with the generation of its fence,
until there are enough. -/
def eligibleProfiles : ℕ → List ((k : Key) × Row k) → Handler (List (ProfileRow × ℤ))
  | 0, _ => return []
  | _, [] => return []
  | limit + 1, ⟨.teacherProfile _, profile⟩ :: rows => do
    if ¬ isEligible env.dispatch profile then eligibleProfiles (limit + 1) rows
    else
      let fence ← RowStore.Handler.get .tableError (fenceKey profile.userId)
      match requireActiveAccountFence fence none with
      | none => eligibleProfiles (limit + 1) rows
      | some generation => return (profile, generation) :: (← eligibleProfiles limit rows)
  | limit + 1, _ :: rows => eligibleProfiles (limit + 1) rows

def listTeacherProfiles : Handler (List (ProfileRow × ℤ)) := do
  let rows ← RowStore.Handler.list .tableError isTeacherProfile
  eligibleProfiles env 200 rows

def deadline (now : Instant) : Instant := now + DISPATCH_ACCEPT_TIMEOUT_SECONDS * 1000000

/-- The identity of an offer, drawn when it is made. -/
abbrev Drawn := {text : String // text ≠ ""}

/-- What an offer writes. -/
def offer (record : RequestRow) (teacherId dispatchId : String) (previous : List String)
    (now : Instant) (stored : RequestRow) : RequestRow :=
  { stored with
    dispatchedTeacherId := some teacherId
    dispatchStatus := some .dispatched
    dispatchId := some dispatchId
    dispatchDeadlineAt := some (deadline now)
    dispatchAttemptCount := record.dispatchAttemptCount + 1
    dispatchUpdatedAt := some now
    previousDispatchTeacherIds := previous
    noCandidateReason := none
    noCandidateSince := none }

/-- What finding nobody writes. -/
def noCandidate (record : RequestRow) (reason : String) (previous : List String) (now : Instant)
    (stored : RequestRow) : RequestRow :=
  { stored with
    dispatchStatus := some .noCandidate
    noCandidateReason := some reason
    noCandidateSince := some (record.noCandidateSince.getD now)
    dispatchUpdatedAt := some now
    previousDispatchTeacherIds := previous
    dispatchedTeacherId := none
    dispatchId := none
    dispatchDeadlineAt := none }

/-- A request that moved on is answered as it was read. -/
def unlessConflict (x : Handler RequestRow) (record : RequestRow) : Handler RequestRow :=
  attempt x fun
    | .conflict _ => return record
    | e => throw e

/-- `_record_no_candidate` -/
def recordNoCandidate (record : RequestRow) (reason : String) (previous : List String)
    (now : Instant) : Handler RequestRow :=
  if record.dispatchStatus = some .noCandidate ∧ record.noCandidateReason = some reason ∧
      truthy record.dispatchId = none ∧ previous = record.previousDispatchTeacherIds then
    return record
  else
    unlessConflict (write record (noCandidate record reason previous now) RequestRow.isFree [] false)
      record

/-- `dispatch`; the identity of the offer is drawn by the caller. -/
def dispatch (record : RequestRow) (dispatchId : Drawn) (now : Instant) : Handler RequestRow := do
  if record.status ≠ .pending ∨ record.holder ≠ "" ∨ record.liveOffer now then return record
  else
    let previous := record.previous now
    let profiles ← listTeacherProfiles env
    let plan := planDispatch env.dispatch ⟨"", record.subject, previous⟩ profiles now
    match plan.selected with
    | [] => recordNoCandidate record (topRefusalReason plan.refused) previous now
    | candidate :: _ =>
      unlessConflict (write record (offer record candidate.teacherId dispatchId.val previous now)
        RequestRow.isFree (teacherAssignmentConditions candidate.teacherId candidate.role
          candidate.accountFenceGeneration candidate.profileVersion) false) record

/-! ## Asking -/

/-- The arguments of `ask`: what it is given of the conversation, the identity of
the first offer, and the time. -/
structure AskRequest where
  conversationId : String
  /-- The student of the conversation. -/
  ownerId : String
  subject : String
  grade : String
  studentId : String
  message : Option String
  systemMessage : String
  dispatchId : Drawn
  now : Instant

structure AskOutcome where
  disposition : Option TeacherSupportAdmissionDisposition
  record : Option RequestRow
  created : Bool

namespace AskRequest

def note (r : AskRequest) : Option String := truthy (r.message.map stripped)

def record (r : AskRequest) (generation : ℤ) : RequestRow where
  conversationId := r.conversationId
  studentId := r.studentId
  accountFenceGeneration := generation
  version := 1
  status := .pending
  escalatedAt := r.now
  createdAt := r.now
  updatedAt := r.now
  subject := r.subject
  grade := r.grade
  escalationMessage := r.note
  teacherId := none
  acceptedAt := none
  firstTeacherActionAt := none
  resolvedAt := none
  resolutionNote := none
  withdrawnAt := none
  expiredAt := none
  dispatchStatus := none
  dispatchedTeacherId := none
  dispatchId := none
  dispatchDeadlineAt := none
  dispatchAttemptCount := 0
  dispatchUpdatedAt := none
  previousDispatchTeacherIds := []
  noCandidateReason := none
  noCandidateSince := none

/-- The system message that opens the request in the conversation. -/
def systemMessageRow (r : AskRequest) (generation : ℤ) : MessageRow where
  messageId := r.conversationId
  conversationId := r.conversationId
  studentId := r.studentId
  accountFenceGeneration := generation
  role := "system"
  content := r.systemMessage
  createdAt := r.now
  systemEvent := some "teacher_help_requested"
  escalationMessage := r.message
  rich := none
  format := none
  authorName := none
  attachmentIds := []

/-- What is written together with the case. -/
def rows (r : AskRequest) (generation : ℤ) : List (Write Key Row) := [
  activeFence r.studentId generation,
  .putNew (.request r.conversationId) (.record (r.record generation)),
  .putNew (.message r.conversationId r.conversationId) (r.systemMessageRow generation),
  .check (.conversation r.conversationId) (Option.any fun row => row.studentId = r.studentId)]

/-- The case of the request; what is written with it is around the operations of
the allowance. -/
def case (r : AskRequest) : TeacherSupport.AdmitRequest where
  supportCaseId := r.conversationId
  caseKind := "conversation"
  beneficiaryId := r.studentId
  persistCase := ⟨[], [], by simp⟩
  observedAt := r.now

end AskRequest

/-- A result of the allowance, or what it raised. -/
def ofSupport {α : Type} : Except Failure α → Except Raised α
  | .ok a => .ok a
  | .error failure => .error (.support failure)

def admitCase (r : AskRequest) (generation : ℤ) :
    Handler TeacherSupport.TeacherSupportAdmissionResult :=
  ExceptT.mk (((TeacherSupport.admitTeacherSupportCase env.support r.case).within support
    (r.rows generation)).bind fun answer => .ret (ofSupport answer))

def ask (r : AskRequest) : Handler AskOutcome := do
  if r.conversationId = "" ∨ r.ownerId ≠ r.studentId then
    throw (.conflict "conversation is not this student's")
  match ← get r.conversationId with
  | some existing => return ⟨none, some existing, false⟩
  | none =>
    let generation ← requireFence r.studentId
    if r.studentId = "" then throw .attachmentConflict
    let admission ← admitCase env r generation
    match admission.disposition with
    | .replayed =>
      match ← get r.conversationId with
      | some written => return ⟨some .replayed, some written, false⟩
      | none => throw (.unavailable r.conversationId)
    | .admitted =>
      -- The sweep makes the first offer if this one fails.
      let offered ← attempt (dispatch env (r.record generation) r.dispatchId r.now)
        fun _ => return r.record generation
      return ⟨some .admitted, some offered, true⟩
    | disposition => return ⟨some disposition, none, false⟩

/-! ## Ending a request nobody took -/

inductive Outcome where
  | withdrawn
  | expired
  deriving DecidableEq, Repr

namespace Outcome

def text : Outcome → String
  | withdrawn => "withdrawn"
  | expired => "expired"

def status : Outcome → Status
  | withdrawn => .withdrawn
  | expired => .expired

def dispatchStatus : Outcome → DispatchStatus
  | withdrawn => .withdrawn
  | expired => .expired

end Outcome

structure EndRequest where
  conversationId : String
  outcome : Outcome
  /-- The withdrawing student. -/
  studentId : Option String
  askedBefore : Option Instant
  now : Instant

structure Ending where
  record : RequestRow
  changed : Bool
  refund : Option TeacherSupportRefundDisposition
  refundWeek : Option String

namespace EndRequest

/-- What an attempt does with the record it has read: answer, or end it. -/
def decide (r : EndRequest) : Option RequestRow → Except Raised (Ending ⊕ RequestRow)
  | none => .error (.endingRefused "teacher_help_request_not_found")
  | some record =>
    if record.studentId = "" ∨ r.studentId.any (· ≠ record.studentId) then
      .error (.endingRefused "teacher_help_request_not_found")
    else if record.status = r.outcome.status then .ok (.inl ⟨record, false, none, none⟩)
    else if record.holder ≠ "" ∨ record.status ∈ [.inProgress, .resolved] then
      .error (.endingRefused "teacher_help_already_accepted")
    else if record.status ≠ .pending then .error (.endingRefused "teacher_help_request_closed")
    else if r.askedBefore.any (· < record.escalatedAt) then
      .error (.endingRefused "teacher_help_request_not_due")
    else .ok (.inr record)

/-- What the end of a request writes. -/
def ended (r : EndRequest) (stored : RequestRow) : RequestRow :=
  { stored with
    status := r.outcome.status
    dispatchStatus := some r.outcome.dispatchStatus
    withdrawnAt := if r.outcome = .withdrawn then some r.now else stored.withdrawnAt
    expiredAt := if r.outcome = .expired then some r.now else stored.expiredAt
    updatedAt := r.now
    dispatchedTeacherId := none
    dispatchId := none
    dispatchDeadlineAt := none
    noCandidateReason := none
    noCandidateSince := none }

/-- What is written together with the refund. -/
def rows (r : EndRequest) (record : RequestRow) : List (Write Key Row) :=
  [activeFence record.studentId record.accountFenceGeneration,
    updateOperation record r.ended RequestRow.isFree]

def refund (r : EndRequest) (record : RequestRow) : TeacherSupport.RefundRequest where
  supportCaseId := r.conversationId
  caseKind := "conversation"
  beneficiaryId := record.studentId
  reason := r.outcome.text
  persistRefund := ⟨[], [], by simp⟩
  observedAt := r.now

/-- The request as it is once it has ended; where it cannot be read, as it was. -/
def written (r : EndRequest) (record : RequestRow) : Except Raised (Option RequestRow) → RequestRow
  | .ok (some written) => written
  | _ => { record with status := r.outcome.status }

/-- An attempt; it is made again where something moved. -/
def attempt (r : EndRequest) : Program Key Row (Option (Except Raised Ending)) :=
  (get r.conversationId).run.bind fun
    | .error _ => .ret (some (.error (.endingUnavailable r.conversationId)))
    | .ok found =>
      match r.decide found with
      | .error raised => .ret (some (.error raised))
      | .ok (.inl ending) => .ret (some (.ok ending))
      | .ok (.inr record) =>
        if record.accountFenceGeneration ≤ 0 then .ret (some (.error .accountConflict))
        else
          ((TeacherSupport.refundTeacherSupportCase env.support (r.refund record)).within support
            (r.rows record)).bind fun
            | .error failure => .ret (some (.error (.support failure)))
            | .ok result =>
              match result.disposition with
              | .idempotencyConflict =>
                .ret (some (.error (.endingRefused "teacher_help_request_not_withdrawable")))
              | .retryable => .ret none
              | disposition => (get r.conversationId).run.bind fun answer =>
                .ret (some (.ok ⟨r.written record answer, true, some disposition,
                  result.weekIdentity⟩))

end EndRequest

/-- `_end` -/
def «end» (r : EndRequest) : Handler Ending :=
  ExceptT.mk (.retry (r.attempt env) (.error (.endingUnavailable r.conversationId)) 4)

def withdraw (conversationId studentId : String) (now : Instant) : Handler RequestRow := do
  return (← «end» env ⟨conversationId, .withdrawn, some studentId, none, now⟩).record

/-- `expire`; the request where this call has ended it. -/
def expire (conversationId : String) (askedBefore now : Instant) : Handler (Option RequestRow) :=
  attempt (do
    let ending ← «end» env ⟨conversationId, .expired, none, some askedBefore, now⟩
    return if ending.changed then some ending.record else none) fun
    | .endingRefused _ => return none
    | e => throw e

/-! ## The teacher's moves -/

/-- `TEACHER_TARGETS` -/
inductive Target where
  | inProgress
  | resolved
  deriving DecidableEq, Repr

def Target.status : Target → Status
  | inProgress => .inProgress
  | resolved => .resolved

def getProfile (userId : String) : Handler (Option ProfileRow) :=
  RowStore.Handler.get Raised.tableError (Key.teacherProfile userId)

/-- `_teacher_standing_conditions` -/
def teacherStandingConditions (teacherId : String) : Handler (List (Write Key Row)) := do
  let profile ← getProfile teacherId
  let fence ← RowStore.Handler.get .tableError (fenceKey teacherId)
  match requireActiveAccountFence fence none, profile with
  | none, _ => throw (.conflict "teacher account is not active")
  | some _, none => throw (.conflict "teacher account is not active")
  | some generation, some profile =>
    if profile.accountStatus ≠ "active" then throw (.conflict "teacher account is not active")
    else if env.dispatch.lower profile.role ∉ ELIGIBLE_ROLES then
      throw (.conflict "profile cannot take teacher help requests")
    else return teacherAssignmentConditions teacherId profile.role generation profile.version

/-- The arguments of `take_or_finish`. -/
structure Advance where
  teacherId : String
  target : Target
  resolutionNote : Option String
  now : Instant

namespace Advance

/-- What a move writes; `replies` says whether a reply is written along. -/
def moved (a : Advance) (record : RequestRow) (replies : Bool) (stored : RequestRow) : RequestRow :=
  { stored with
    status := a.target.status
    updatedAt := a.now
    resolvedAt := if a.target = .resolved then some a.now else stored.resolvedAt
    resolutionNote :=
      if a.target = .resolved then (truthy a.resolutionNote).or stored.resolutionNote
      else stored.resolutionNote
    firstTeacherActionAt :=
      if replies ∧ record.firstTeacherActionAt = none then some a.now
      else stored.firstTeacherActionAt }

/-- What a move writes that takes the request. -/
def taken (a : Advance) (record : RequestRow) (replies : Bool) (stored : RequestRow) : RequestRow :=
  { a.moved record replies stored with
    teacherId := some a.teacherId
    dispatchStatus := some .accepted
    acceptedAt := some a.now }

/-- The exact offer, which has not lapsed. -/
def offerHeld (a : Advance) (dispatchId : String) (stored : RequestRow) : Bool :=
  stored.teacherId = none ∧ stored.status = .pending ∧
    stored.dispatchStatus = some .dispatched ∧ stored.dispatchedTeacherId = some a.teacherId ∧
      stored.dispatchId = some dispatchId ∧ stored.dispatchDeadlineAt.any (a.now < ·)

/-- The teacher still holds it, and it is open. -/
def stillHeld (a : Advance) (stored : RequestRow) : Bool :=
  stored.teacherId = some a.teacherId ∧ stored.status.isOpen

end Advance

/-- `_advance`, with the rows of a reply, if there is one. -/
def advance (record : RequestRow) (a : Advance) (reply : Option (List (Write Key Row))) :
    Handler RequestRow := do
  if ¬ record.status.isOpen ∨ (record.holder ≠ "" ∧ record.holder ≠ a.teacherId) then
    throw (.conflict "help request is not open to this teacher")
  else if record.holder = "" then
    match truthy record.dispatchId with
    | none => throw (.conflict "help request holds no offer for this teacher")
    | some dispatchId =>
      if record.status ≠ .pending ∨ record.dispatchStatus ≠ some .dispatched ∨
          record.offeredTo ≠ a.teacherId then
        throw (.conflict "help request holds no offer for this teacher")
      else if a.teacherId ∈ record.previousDispatchTeacherIds then
        throw (.conflict "teacher already let this request lapse")
      else
        let standing ← teacherStandingConditions env a.teacherId
        write record (a.taken record reply.isSome) (a.offerHeld dispatchId)
          (standing ++ reply.getD []) true
  else
    let standing ← teacherStandingConditions env a.teacherId
    write record (a.moved record reply.isSome) a.stillHeld (standing ++ reply.getD []) true

/-- The arguments of `reply`, with the identities that are drawn for its rows. -/
structure ReplyRequest where
  teacherId : String
  authorName : Option String
  content : String
  rich : Option Document
  format : Option String
  attachmentIds : List String
  /-- What attaches the images. -/
  images : List (Write Key Row)
  foreign : ∀ w ∈ images, ∃ name, w.key = .other name
  noteId : String
  messageId : String
  now : Instant

namespace ReplyRequest

/-- `_reply_row`, with the stamps of its write. -/
def noteRow (r : ReplyRequest) (record : RequestRow) (generation : ℤ) : NoteRow where
  noteId := r.noteId
  conversationId := record.conversationId
  teacherId := r.teacherId
  teacherName := r.authorName.getD "Teacher"
  content := r.content
  rich := r.rich
  format := r.format
  createdAt := r.now
  attachmentIds := r.attachmentIds
  studentId := record.studentId
  accountFenceGeneration := generation

def messageRow (r : ReplyRequest) (record : RequestRow) (generation : ℤ) : MessageRow where
  messageId := r.messageId
  conversationId := record.conversationId
  studentId := record.studentId
  accountFenceGeneration := generation
  role := "teacher"
  content := r.content
  createdAt := r.now
  systemEvent := none
  escalationMessage := none
  rich := r.rich
  format := r.format
  authorName := truthy (r.authorName.map stripped)
  attachmentIds := r.attachmentIds

/-- `reply_operations` -/
def rows (r : ReplyRequest) (record : RequestRow) (generation : ℤ) : List (Write Key Row) := [
  .putNew (.note record.conversationId r.noteId) (r.noteRow record generation),
  .putNew (.message record.conversationId r.messageId) (r.messageRow record generation)] ++ r.images

/-- What a reply of the holder writes. -/
def replied (r : ReplyRequest) (record stored : RequestRow) : RequestRow :=
  { stored with
    updatedAt := r.now
    firstTeacherActionAt :=
      if record.firstTeacherActionAt = none then some r.now else stored.firstTeacherActionAt }

/-- A reply to an offer takes it. -/
def advance (r : ReplyRequest) : Advance := ⟨r.teacherId, .inProgress, none, r.now⟩

end ReplyRequest

/-- The fence of the student, read for a reply. -/
def replyGeneration (studentId : String) : Handler ℤ :=
  attempt (requireFence studentId) fun
    | .accountConflict => throw (.conflict "student account is not writable")
    | e => throw e

/-- `reply`, up to the row of the reply that is answered. -/
def reply (record : RequestRow) (r : ReplyRequest) : Handler NoteRow := do
  if record.holder ≠ r.teacherId ∧ ¬ record.holderOrOffered r.teacherId then
    throw (.conflict "help request is not this teacher's")
  else
    let generation ← replyGeneration record.studentId
    if record.studentId = "" then throw .attachmentConflict
    else if record.holder = r.teacherId then
      let _ ← write record (r.replied record) (fun stored => stored.teacherId = some r.teacherId)
        (r.rows record generation) true
      return r.noteRow record generation
    else
      let _ ← advance env record r.advance (some (r.rows record generation))
      return r.noteRow record generation

/-! ## Account deletion -/

structure ScrubRequest where
  teacherId : String
  generation : ℤ
  now : Instant

namespace ScrubRequest

/-- What taking the teacher off writes. -/
def scrubbed (r : ScrubRequest) (record stored : RequestRow) : RequestRow :=
  let kept := { stored with
    previousDispatchTeacherIds := record.previousDispatchTeacherIds.filter (· ≠ r.teacherId)
    updatedAt := r.now }
  if record.teacherId = some r.teacherId ∨ record.dispatchedTeacherId = some r.teacherId then
    { kept with
      teacherId := none
      acceptedAt := none
      dispatchedTeacherId := none
      dispatchId := none
      dispatchDeadlineAt := none
      status := if record.status.isOpen then .pending else stored.status
      dispatchStatus := some (if record.status.isOpen then .unassigned else .revoked) }
  else kept

/-- `deletion_fence_condition` -/
def fence (r : ScrubRequest) : Write Key Row :=
  .check (fenceKey r.teacherId) (Option.any fun fence =>
    fence.status = "deletion_pending" ∧ fence.generation = some r.generation)

end ScrubRequest

/-- `scrub_teacher` -/
def scrubTeacher (record : RequestRow) (r : ScrubRequest) : Handler Unit :=
  attempt (do
    let _ ← write record (r.scrubbed record) (fun _ => true) [r.fence] false
    return ()) fun
    | .conflict _ => throw .rowConflict
    | e => throw e

/-! ## The sweep -/

def TEACHER_HELP_EXPIRY_SECONDS : ℤ := 24 * 60 * 60

def cutoff (now : Instant) : Instant := now - TEACHER_HELP_EXPIRY_SECONDS * 1000000

/-- `_due_to_expire` -/
def RequestRow.dueToExpire (record : RequestRow) (cutoff : Instant) : Bool :=
  record.holder = "" ∧ record.escalatedAt ≤ cutoff

structure SweepReport where
  reassigned : ℕ := 0
  completed : Bool := true
  waiting : ℕ := 0
  dispatched : List (String × DispatchStatus) := []
  expired : List String := []
  deriving DecidableEq, Repr

/-- What a dispatch adds to the report. -/
def SweepReport.attended (report : SweepReport) (record written : RequestRow) : SweepReport :=
  { report with
    waiting := report.waiting + 1
    reassigned := report.reassigned + if record.dispatchStatus = some .dispatched then 1 else 0
    dispatched := match written.dispatchStatus with
      | some status =>
        if status ∈ [.dispatched, .noCandidate] ∧ written.version ≠ record.version then
          report.dispatched ++ [(record.conversationId, status)]
        else report.dispatched
      | none => report.dispatched }

/-- One request of the sweep; `drawn` are the identities of the offers it makes. -/
def sweepRecord (drawn : String → Drawn) (now : Instant) (report : SweepReport)
    (record : RequestRow) : Handler SweepReport := do
  let ended ← if record.dueToExpire (cutoff now) then
      attempt (expire env record.conversationId (cutoff now) now) fun _ => pure none
    else pure none
  if ended.isSome then return { report with expired := report.expired ++ [record.conversationId] }
  else if record.holder ≠ "" ∨ record.liveOffer now then return report
  else
    let written ← dispatch env record (drawn record.conversationId) now
    return report.attended record written

def sweepRecords (drawn : String → Drawn) (now : Instant) :
    List RequestRow → SweepReport → Handler SweepReport
  | [], report => return report
  | record :: records, report => do
    sweepRecords drawn now records (← sweepRecord env drawn now report record)

/-- `sweep`, which answers also where it failed. What it had counted until then is
not modelled. -/
def sweep (drawn : String → Drawn) (now : Instant) : Handler SweepReport :=
  attempt (do sweepRecords env drawn now (← listOpen) {}) fun _ => return { completed := false }

/-! ## The service -/

/-- A call; those on a record read it first. -/
inductive Call where
  | ask (r : AskRequest)
  | withdraw (conversationId studentId : String) (now : Instant)
  | sweep (drawn : String → Drawn) (now : Instant)
  | takeOrFinish (conversationId : String) (a : Advance)
  | reply (conversationId : String) (r : ReplyRequest)
  | scrub (conversationId : String) (r : ScrubRequest)
  | assign (r : TeacherSupport.AssignRequest)

inductive Result where
  | asked (outcome : AskOutcome)
  | record (record : RequestRow)
  | note (note : NoteRow)
  | swept (report : SweepReport)
  | scrubbed
  | assigned (result : TeacherSupport.AssignedCasesWrite)

/-- What a route does with a request: read it, and hand it on. -/
def withRecord {α : Type} (conversationId : String) (f : RequestRow → Handler α) : Handler α := do
  match ← get conversationId with
  | some record => f record
  | none => throw (.endingRefused "teacher_help_request_not_found")

def Call.handler : Call → Handler Result
  | .ask r => return .asked (← HelpRequest.ask env r)
  | .withdraw conversationId studentId now =>
    return .record (← HelpRequest.withdraw env conversationId studentId now)
  | .sweep drawn now => return .swept (← HelpRequest.sweep env drawn now)
  | .takeOrFinish conversationId a =>
    return .record (← withRecord conversationId fun record => advance env record a none)
  | .reply conversationId r =>
    return .note (← withRecord conversationId fun record => HelpRequest.reply env record r)
  | .scrub conversationId r => do
    withRecord conversationId fun record =>
      if record.referencesTeacher r.teacherId then scrubTeacher record r else return ()
    return .scrubbed
  | .assign r => do
    let result ← (ExceptT.mk (((TeacherSupport.setAssignedWeeklyCases r).within support []).bind
      fun answer => .ret (ofSupport answer)) : Handler _)
    return .assigned result

/-- Other code writes any other row, and may leave a tombstone for a request or
remove a reply. -/
structure Drift (t t' : Table Key Row) : Prop where
  support : ∀ k : TeacherSupport.Key, k.IsOwn → t'.row (.support k) = t.row (.support k)
  request : ∀ c, t'.row (.request c) = t.row (.request c) ∨
    (t.row (.request c) ≠ none ∧ t'.row (.request c) = some .tombstone)
  note : ∀ c n, t.row (.note c n) = none → t'.row (.note c n) = none

def service (faults : Faults) : Service Key Row Call (Except Raised Result) where
  body := fun c => (c.handler env).run
  mayStart := fun _ _ => True
  drift := Drift
  faults := faults

end Stoa.HelpRequest
