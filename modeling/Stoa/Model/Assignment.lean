import Stoa.Model.AccountFence
import Stoa.Store.Handler
import Stoa.Store.Interleaving
import Mathlib.Algebra.GroupWithZero.Nat

/-! # Learning assignments

An assignment is started, completed, skipped or archived by conditional updates on
its status. What a completion does to the student's progress is left on the row as a
pending effect, which a call claims, executes and clears. -/

namespace Stoa.Assignment

open RowStore

/-! ## Rows -/

inductive Status where
  | draft
  | recommended
  | assigned
  | started
  | completed
  | skipped
  | archived
  deriving DecidableEq, Repr

inductive Event where
  | started
  | completed
  | skipped
  | archived
  deriving DecidableEq, Repr

structure CompletionResult where
  correct : Bool
  attemptCount : ℕ
  deriving DecidableEq

structure SequencingFeedback where
  event : Event
  recordedAt : Instant
  sourceType : String
  sourceId : String
  subject : String
  topicIds : List String
  remediationTopicIds : List String
  rankingEffect : String
  correct : Option Bool
  attemptCount : Option ℕ
  deriving DecidableEq

inductive EffectState where
  | pending
  | processing
  deriving DecidableEq, Repr

structure PendingEffect where
  state : EffectState
  event : Event
  correct : Option Bool
  transitionToken : String
  claimToken : Option String := none
  deriving DecidableEq

/-- What an assignment is about; no transition changes it. -/
structure Source where
  studentId : String
  sourceType : String
  sourceId : String
  subject : String
  topicIds : List String
  lessonId : String
  exerciseId : Option String
  createdAt : Instant
  deriving DecidableEq

/-- The row of an assignment. The effect `{}` is the one that is absent. -/
structure Row where
  source : Source
  ownerId : String
  accountFenceGeneration : ℤ
  status : Status
  updatedAt : Instant
  startedAt : Option Instant := none
  completedAt : Option Instant := none
  skippedAt : Option Instant := none
  archivedAt : Option Instant := none
  skipNote : Option String := none
  archiveNote : Option String := none
  studentAnswer : Option String := none
  completionResult : Option CompletionResult := none
  sequencingFeedback : Option SequencingFeedback := none
  transitionToken : Option String := none
  pendingSequencingEffect : Option PendingEffect := none
  sequencingEffectAppliedAt : Option Instant := none
  deriving DecidableEq

structure Attempt where
  challengeId : String
  subjectId : String
  topicId : String
  lessonId : String
  studentAnswer : String
  correct : Bool
  createdAt : Instant
  selfReported : Bool
  ownerId : String
  accountFenceGeneration : ℤ
  deriving DecidableEq

structure Lesson where
  subjectId : String
  topicId : String
  unitId : String
  deriving DecidableEq

structure LessonProgress where
  subjectId : String
  topicId : String
  unitId : String
  completedAt : Instant
  ownerId : String
  accountFenceGeneration : ℤ
  deriving DecidableEq

inductive Key where
  | accountFence (ownerId : String)
  | assignment (assignmentId : String)
  | attempt (studentId attemptId : String)
  | lesson (lessonId : String)
  | challenge (lessonId challengeId : String)
  | progress (studentId lessonId : String)
  deriving DecidableEq

abbrev Item : Key → Type
  | .accountFence _ => FenceRow
  | .assignment _ => Row
  | .attempt _ _ => Attempt
  | .lesson _ => Lesson
  | .challenge _ _ => Unit
  | .progress _ _ => LessonProgress

inductive Raised where
  | assignmentNotFound
  | assignmentStatusNotCreatable
  | assignmentNotStartable
  | assignmentNotCompletable
  | assignmentNotSkippable
  | accountDeletionConflict
  | valueError (message : String)
  | tableError
  deriving DecidableEq

abbrev Action (α : Type) := Handler Key Item Raised α

/-! ## The fence -/

def fenceCheck (owner : String) (generation : ℤ) : Write Key Item :=
  .check (.accountFence owner) (activeFenceCondition (some generation))

def requireFence (owner : String) : Action ℤ := do
  let fence ← Handler.get .tableError (.accountFence owner)
  match requireActiveAccountFence fence none with
  | none => throw .accountDeletionConflict
  | some generation => return generation

/-- `_generation` -/
def generation (item : Row) : Action (String × ℤ) := do
  let named := if item.source.studentId ≠ "" then item.source.studentId else item.ownerId
  let owner := String.ofList (strip named.toList)
  if owner = "" then throw .accountDeletionConflict
  if item.accountFenceGeneration > 0 then return (owner, item.accountFenceGeneration)
  let supplied ← requireFence owner
  return (owner, supplied)

/-! ## Writing assignments -/

def getAssignment (assignmentId : String) : Action (Option Row) :=
  Handler.get (V := Item) Raised.tableError (Key.assignment assignmentId)

/-- The update that `build_adaptive_write_transaction` makes of the changes, with the
expected status added. -/
def updateWrite (assignmentId owner : String) (generation : ℤ) (expectedStatus : Status)
    (updates : Row → Row) : Write Key Item :=
  .modify (.assignment assignmentId) updates fun stored : Row =>
    stored.ownerId = owner ∧ stored.accountFenceGeneration = generation ∧ stored.status = expectedStatus

/-- On a table with transactions what is expected of the pending effect does not get into
the condition; a refused update is answered with the row as it is. -/
def updateAssignment (assignmentId : String) (updates : Row → Row) (expectedStatus : Status)
    (_expectedPendingToken : Option String := none) (_expectedPendingState : Option EffectState := none) :
    Action (Option Row) := do
  match ← getAssignment assignmentId with
  | none => return none
  | some existing =>
    let (owner, generation) ← generation existing
    if ← Handler.submit [fenceCheck owner generation, updateWrite assignmentId owner generation expectedStatus updates] then
      return some ((← getAssignment assignmentId).getD (updates existing))
    else getAssignment assignmentId

/-! ## Practice -/

def PRACTICE_SUBMITTED_ANSWER_MAX_BYTES : ℕ := 4096

/-- The bytes of a character in `json.dumps(..., ensure_ascii=False)`. -/
def jsonBytes (c : Char) : ℕ :=
  if c = '"' ∨ c = '\\' ∨ c = '\n' ∨ c = '\r' ∨ c = '\t' ∨ c.toNat = 8 ∨ c.toNat = 12 then 2
  else if c.toNat < 32 then 6
  else c.utf8Size

def normalizeSubmittedAnswer (value : String) : Except Raised String :=
  if (value.toList.map jsonBytes).sum + 2 > PRACTICE_SUBMITTED_ANSWER_MAX_BYTES then
    .error (.valueError "submitted answer exceeds the serialized byte bound")
  else .ok value

/-- `put_attempt` -/
def putAttempt (studentId attemptId : String) (attempt : ℤ → Attempt) : Action Unit := do
  let generation ← requireFence studentId
  if ← Handler.submit [fenceCheck studentId generation, .putNew (.attempt studentId attemptId) (attempt generation)] then
    return ()
  else throw .accountDeletionConflict

/-- The attempts of a student in a lesson that the backend has judged right. -/
def isAnsweredRight (lessonId : String) (attempt : Attempt) : Bool :=
  attempt.lessonId = lessonId ∧ attempt.correct = true ∧ attempt.selfReported = false

def challengesAnsweredRight (studentId lessonId : String) : Action (List String) := do
  let rows ← Handler.list .tableError fun
    | .attempt student _ => student = studentId
    | _ => false
  return rows.filterMap fun
    | ⟨.attempt _ _, attempt⟩ => if isAnsweredRight lessonId attempt then some attempt.challengeId else none
    | _ => none

def getChallenges (lessonId : String) : Action (List String) := do
  let rows ← Handler.list .tableError fun
    | .challenge lesson _ => lesson = lessonId
    | _ => false
  return rows.filterMap fun
    | ⟨.challenge _ challengeId, _⟩ => some challengeId
    | _ => none

def unansweredChallengeIds (studentId lessonId : String) : Action (List String) := do
  let answeredRight ← challengesAnsweredRight studentId lessonId
  let challenges ← getChallenges lessonId
  return challenges.filter fun challengeId => challengeId ∉ answeredRight

def markLessonCompleted (studentId lessonId : String) (lesson : Lesson) (now : Instant) : Action Unit := do
  let generation ← requireFence studentId
  let existing ← Handler.get .tableError (.progress studentId lessonId)
  let item : LessonProgress := {
    subjectId := lesson.subjectId
    topicId := lesson.topicId
    unitId := lesson.unitId
    completedAt := now
    ownerId := studentId
    accountFenceGeneration := generation }
  let write : Write Key Item := match existing with
    | none => .putNew (.progress studentId lessonId) item
    | some _ => .modify (.progress studentId lessonId)
        (fun stored : LessonProgress =>
          { item with ownerId := stored.ownerId, accountFenceGeneration := stored.accountFenceGeneration })
        fun stored : LessonProgress => stored.ownerId = studentId
  if ← Handler.submit [fenceCheck studentId generation, write] then return ()
  else throw .accountDeletionConflict

/-! ## The pending effect -/

/-- What one application of an effect takes from outside. -/
structure Readings where
  claimToken : String
  attemptedAt : Instant
  lessonCompletedAt : Instant
  appliedAt : Instant

def attemptId (assignmentId : String) : String := "assignment-" ++ assignmentId

/-- The attempt that an assignment records. -/
def attemptOf (item : Row) (exerciseId answer : String) (correct : Bool) (now : Instant) (generation : ℤ) : Attempt where
  challengeId := exerciseId
  subjectId := item.source.subject
  topicId := item.source.topicIds.headD ""
  lessonId := item.source.lessonId
  studentAnswer := answer
  correct := correct
  createdAt := now
  selfReported := true
  ownerId := item.source.studentId
  accountFenceGeneration := generation

/-- `_record_assignment_progress` -/
def recordAssignmentProgress (assignmentId : String) (item : Row) (correct : Option Bool)
    (studentAnswer : Option String) (readings : Readings) : Action Unit := do
  let exerciseId := item.source.exerciseId.getD ""
  match correct with
  | none => return ()
  | some correct =>
    if exerciseId = "" then return ()
    let answer ← Handler.of (normalizeSubmittedAnswer (studentAnswer.getD ""))
    putAttempt item.source.studentId (attemptId assignmentId)
      (attemptOf item exerciseId answer correct readings.attemptedAt)
    if ¬ correct ∨ item.source.lessonId = "" then return ()
    match ← Handler.get .tableError (.lesson item.source.lessonId) with
    | none => return ()
    | some lesson =>
      let unanswered ← unansweredChallengeIds item.source.studentId item.source.lessonId
      if unanswered ≠ [] then return ()
      markLessonCompleted item.source.studentId item.source.lessonId lesson readings.lessonCompletedAt

/-- `_claim_pending_assignment_effect` -/
def claimPendingAssignmentEffect (assignmentId : String) (item : Row) (effect : PendingEffect)
    (claimToken : String) : Action (Option (Row × PendingEffect)) := do
  if effect.transitionToken = "" then return none
  let claimedEffect := { effect with state := .processing, claimToken := some claimToken }
  let claimed ← updateAssignment assignmentId (fun row => { row with pendingSequencingEffect := some claimedEffect })
    item.status (some effect.transitionToken) (some effect.state)
  match claimed with
  | none => return none
  | some claimed =>
    match claimed.pendingSequencingEffect with
    | none => return none
    | some current =>
      if current.claimToken ≠ some claimToken ∨ current.state ≠ .processing then return none
      return some (claimed, current)

/-- `_apply_pending_assignment_effect` -/
def applyPendingAssignmentEffect (assignmentId : String) (item : Row) (readings : Readings) : Action Unit := do
  match item.pendingSequencingEffect with
  | none => return ()
  | some effect =>
    match ← claimPendingAssignmentEffect assignmentId item effect readings.claimToken with
    | none => return ()
    | some (claimed, claimedEffect) =>
      if claimedEffect.event = .completed then
        recordAssignmentProgress assignmentId claimed claimedEffect.correct none readings
      let _ ← updateAssignment assignmentId
        (fun row => { row with pendingSequencingEffect := none, sequencingEffectAppliedAt := some readings.appliedAt })
        claimed.status (some claimedEffect.transitionToken) (some .processing)

/-! ## Transitions -/

inductive Verb where
  | start
  | complete
  | skip
  | archive
  deriving DecidableEq, Repr

structure Transition where
  assignmentId : String
  verb : Verb
  studentAnswer : Option String := none
  correct : Option Bool := none
  note : Option String := none
  now : Instant
  transitionToken : String
  /-- For the effect that is found on the row. -/
  found : Readings
  /-- For the effect of the transition itself. -/
  own : Readings

/-- `_clean_note` -/
def cleanNote (note : Option String) : Option String :=
  note.bind fun note =>
    let clean := (strip note.toList).take 500
    if clean = [] then none else some (String.ofList clean)

def rankingEffect : Event → Option Bool → String
  | .started, _ => "active_assignment_suppresses_duplicates"
  | .completed, some false => "completion_adds_remediation_pressure"
  | .completed, _ => "completion_reduces_exact_source_priority"
  | .skipped, _ => "skip_temporarily_reduces_priority"
  | .archived, _ => "archive_suppresses_exact_source"

/-- `_assignment_sequencing_feedback` -/
def assignmentSequencingFeedback (item : Row) (event : Event) (recordedAt : Instant)
    (correct : Option Bool := none) (attemptCount : Option ℕ := none) : SequencingFeedback where
  event := event
  recordedAt := recordedAt
  sourceType := item.source.sourceType
  sourceId := item.source.sourceId
  subject := item.source.subject
  topicIds := item.source.topicIds.filter (· ≠ "")
  remediationTopicIds :=
    if (event = .completed ∨ event = .skipped) ∧ correct = some false then item.source.topicIds.filter (· ≠ "") else []
  rankingEffect := rankingEffect event correct
  correct := correct
  attemptCount := attemptCount

def assignmentAttemptCount (item : Row) : ℕ :=
  match item.completionResult with
  | none => 0
  | some result => result.attemptCount

/-- The changes of a transition to the stored row, and its side effect. -/
structure Change where
  updates : Row → Row
  sideEffect : Option Event

/-- What every transition sets. -/
def Transition.touch (r : Transition) (row : Row) : Row :=
  { row with updatedAt := r.now, transitionToken := some r.transitionToken }

def Transition.start (r : Transition) (item : Row) : Except Raised Change :=
  if item.status = .assigned ∨ item.status = .recommended then
    .ok {
      updates := fun row => { r.touch row with
        status := .started
        startedAt := some (item.startedAt.getD r.now)
        sequencingFeedback := some (assignmentSequencingFeedback item .started r.now) }
      sideEffect := some .started }
  else if item.status = .started ∨ item.status = .completed then .ok ⟨r.touch, none⟩
  else .error .assignmentNotStartable

def Transition.complete (r : Transition) (item : Row) : Except Raised Change :=
  if item.status = .completed then
    .ok {
      updates := fun row => { r.touch row with
        status := .completed
        startedAt := some (item.startedAt.getD r.now)
        completedAt := some (item.completedAt.getD r.now)
        studentAnswer := item.studentAnswer
        completionResult := item.completionResult
        sequencingFeedback := item.sequencingFeedback }
      sideEffect := none }
  else if item.status = .assigned ∨ item.status = .recommended ∨ item.status = .started then
    let attemptCount := assignmentAttemptCount item + 1
    .ok {
      updates := fun row => { r.touch row with
        status := .completed
        startedAt := some (item.startedAt.getD r.now)
        completedAt := some (item.completedAt.getD r.now)
        studentAnswer := r.studentAnswer
        completionResult := r.correct.map (⟨·, attemptCount⟩)
        sequencingFeedback :=
          some (assignmentSequencingFeedback item .completed r.now r.correct (some attemptCount))
        pendingSequencingEffect := some {
          state := .pending
          event := .completed
          correct := r.correct
          transitionToken := r.transitionToken } }
      sideEffect := some .completed }
  else .error .assignmentNotCompletable

def Transition.skip (r : Transition) (item : Row) : Except Raised Change :=
  if item.status = .completed ∨ item.status = .archived then .error .assignmentNotSkippable
  else .ok {
    updates := fun row => { r.touch row with
      status := .skipped
      skippedAt := some (item.skippedAt.getD r.now)
      skipNote := cleanNote r.note
      sequencingFeedback := some (assignmentSequencingFeedback item .skipped r.now) }
    sideEffect := if item.status = .skipped then none else some .skipped }

def Transition.archive (r : Transition) (item : Row) : Except Raised Change :=
  .ok {
    updates := fun row => { r.touch row with
      status := .archived
      archivedAt := some (item.archivedAt.getD r.now)
      archiveNote := cleanNote r.note
      sequencingFeedback := some (assignmentSequencingFeedback item .archived r.now) }
    sideEffect := if item.status = .archived then none else some .archived }

def Transition.change (r : Transition) (item : Row) : Except Raised Change :=
  match r.verb with
  | .start => r.start item
  | .complete => r.complete item
  | .skip => r.skip item
  | .archive => r.archive item

def existingAssignment (assignmentId : String) : Action Row := do
  match ← getAssignment assignmentId with
  | none => throw .assignmentNotFound
  | some item => return item

def transitionAssignment (r : Transition) : Action Row := do
  let item ← existingAssignment r.assignmentId
  let item ←
    if item.pendingSequencingEffect.isSome then do
      applyPendingAssignmentEffect r.assignmentId item r.found
      existingAssignment r.assignmentId
    else pure item
  let change ← Handler.of (r.change item)
  match ← updateAssignment r.assignmentId change.updates item.status with
  | none => throw .assignmentNotFound
  | some updated =>
    if updated.transitionToken = some r.transitionToken ∧ change.sideEffect = some .completed then
      applyPendingAssignmentEffect r.assignmentId updated r.own
    return updated

/-! ## The service -/

structure Creation where
  assignmentId : String
  source : Source
  status : Status

/-- The new row of an assignment, behind the fence of its student. -/
def newAssignment (r : Creation) (owner : String) (generation : ℤ) : Row where
  source := r.source
  ownerId := owner
  accountFenceGeneration := generation
  status := r.status
  updatedAt := r.source.createdAt

/-- `create_assignment`, for a source that may be assigned. -/
def createAssignment (r : Creation) : Action Unit := do
  if r.status ≠ .draft ∧ r.status ≠ .recommended ∧ r.status ≠ .assigned then throw .assignmentStatusNotCreatable
  let (owner, generation) ← generation (newAssignment r "" 0)
  if ← Handler.submit [fenceCheck owner generation,
      .putNew (.assignment r.assignmentId) (newAssignment r owner generation)] then return ()
  else throw .accountDeletionConflict

/-- A row that only assignments write. -/
def OfAssignments : Key → Prop
  | .assignment _ => True
  | .attempt _ id => ∃ assignmentId, id = attemptId assignmentId
  | _ => False

/-- A transaction of other code, which leaves assignments alone. -/
structure Elsewhere where
  ops : List (Write Key Item)
  avoids : ∀ w ∈ ops, ¬ OfAssignments w.key

inductive Call where
  | transition (r : Transition)
  | create (r : Creation)
  | elsewhere (other : Elsewhere)

/-- Any number of transitions, beside other code. -/
def service (faults : Faults) : Service Key Item Call (Except Raised (Option Row)) where
  body
    | .transition r => (some <$> transitionAssignment r).run
    | .create r => ((fun _ => none) <$> createAssignment r).run
    | .elsewhere other => .transact other.ops fun _ => .ret (.ok none)
  mayStart := fun _ _ => True
  drift := fun t t' => t' = t
  faults := faults

end Stoa.Assignment
