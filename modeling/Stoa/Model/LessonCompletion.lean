import Stoa.Model.Practice
import Mathlib.Data.Finset.Card
import Mathlib.Data.List.Sort

/-! # Completing a lesson

What `complete_lesson` checks and stores, and the streak that is read from the
stored days. -/

namespace Stoa.LessonCompletion

open RowStore Practice

/-! ## Rows -/

/-- A date of the calendar, as its ordinal: the first of January of the year 1 is 1. -/
structure Date where
  ordinal : ℤ
  first : 1 ≤ ordinal
  last : ordinal ≤ 3652059
  deriving DecidableEq

/-- A credential as it is stored. -/
structure CredentialRow extends QuizCredential where
  studentId : String
  deriving DecidableEq

/-- A finished lesson. There is one row of it, however often it is finished. -/
structure ProgressRow where
  studentId : String
  lessonId : String
  subjectId : String
  topicId : String
  unitId : String
  status : String
  /-- `none` where the stored text is not a moment. -/
  completedAt : Option Instant
  deriving DecidableEq

structure StudyDayRow where
  studentId : String
  day : Date
  lastKind : String
  lastSeenAt : Instant
  deriving DecidableEq

/-- A lesson among the lessons of its topic. -/
structure TopicLesson where
  lessonId : String
  order : ℤ
  deriving DecidableEq

/-- A row that the streak is read from. -/
inductive EvidenceKey where
  | progress (studentId lessonId : String)
  | studyDay (studentId : String) (day : Date)
  deriving DecidableEq

inductive Key where
  | accountFence (ownerId : String)
  | quizCredential (studentId credentialId : String)
  | evidence (k : EvidenceKey)
  /-- What `get_challenges` answers for a lesson. -/
  | challenges (lessonId : String)
  /-- The exercises of a lesson that a student has answered right. -/
  | answeredRight (studentId lessonId : String)
  /-- What `get_lessons` answers for a topic. -/
  | lessons (topicId : String)
  deriving DecidableEq

abbrev Item : EvidenceKey → Type
  | .progress _ _ => ProgressRow
  | .studyDay _ _ => StudyDayRow

abbrev Row : Key → Type
  | .accountFence _ => FenceRow
  | .quizCredential _ _ => CredentialRow
  | .evidence k => Practice.Owned (Item k)
  | .challenges _ => List String
  | .answeredRight _ _ => Finset String
  | .lessons _ => List TopicLesson

/-! ## Access -/

inductive Raised where
  /-- The table did not answer, or refused. -/
  | dependency
  /-- `date value out of range` -/
  | overflow
  | lessonQuizCredentialInvalid
  | lessonQuizCredentialExpired
  | lessonExercisesUnanswered (count : ℕ)
  deriving DecidableEq, Repr

abbrev Handler (α : Type) := RowStore.Handler Key Row Raised α

def get (k : Key) : Handler (Option (Row k)) := RowStore.Handler.get Raised.dependency k

def list (select : Key → Bool) : Handler (List ((k : Key) × Row k)) :=
  RowStore.Handler.list Raised.dependency select

/-- `_write_generation` -/
def writeGeneration (ownerId : String) : Handler ℤ := do
  match requireActiveAccountFence (← get (.accountFence ownerId)) none with
  | none => throw .dependency
  | some generation => return generation

def transact (ops : List (Write Key Row)) : Handler Unit := do
  if ← RowStore.Handler.submit ops then return () else throw .dependency

def fenceCheck (ownerId : String) (generation : ℤ) : Write Key Row :=
  .check (.accountFence ownerId) (activeFenceCondition (some generation))

/-- `build_practice_write_transaction` in the modes `put` and `update`, by whether a
row is stored already. -/
def saveTransaction (k : EvidenceKey) (item : Item k) (ownerId : String) (generation : ℤ) :
    Option (Row (.evidence k)) → List (Write Key Row)
  | none => [
      fenceCheck ownerId generation,
      .putNew (.evidence k) (⟨ownerId, generation, item⟩ : Practice.Owned (Item k))]
  | some _ => [
      fenceCheck ownerId generation,
      .modify (.evidence k) (fun row : Practice.Owned (Item k) => { row with item := item })
        fun row : Practice.Owned (Item k) => row.ownerId = ownerId]

/-- Put a row, or replace the one that is there. -/
def save (k : EvidenceKey) (item : Item k) (ownerId : String) : Handler Unit := do
  let generation ← writeGeneration ownerId
  let existing ← get (.evidence k)
  transact (saveTransaction k item ownerId generation existing)

/-! ## Study days -/

/-- Mark that a student studied on a day. -/
def recordStudyDay (studentId : String) (day : Date) (kind : String) (at_ : Instant) : Handler Unit :=
  save (.studyDay studentId day)
    (⟨studentId, day, kind, at_⟩ : StudyDayRow) studentId

/-! ## Lessons -/

/-- A lesson that was found by its id. -/
structure Lesson where
  lessonId : String
  subjectId : String
  topicId : String
  unitId : String
  named : lessonId ≠ ""
  deriving DecidableEq

def progressItem (userId : String) (lesson : Lesson) (now : Instant) : ProgressRow where
  studentId := userId
  lessonId := lesson.lessonId
  subjectId := lesson.subjectId
  topicId := lesson.topicId
  unitId := lesson.unitId
  status := "completed"
  completedAt := some now

def markLessonCompleted (userId : String) (lesson : Lesson) (now : Instant) : Handler Unit :=
  save (.progress userId lesson.lessonId) (progressItem userId lesson now) userId

/-- Spend the credential once, and say whether this caller was the one. -/
def consumeQuizCredential (studentId credentialId lessonId : String) : Handler Bool :=
  RowStore.Handler.submit [
    .delete (.quizCredential studentId credentialId) fun stored =>
      stored.any fun row : CredentialRow => row.studentId = studentId ∧ row.lessonId = lessonId]

/-- Take one credential out of circulation, or refuse the completion. -/
def spendQuizCredential (studentId lessonId credential : String) (now : Instant) : Handler Unit := do
  match ← get (.quizCredential studentId credential) with
  | none => throw .lessonQuizCredentialInvalid
  | some (stored : CredentialRow) =>
    if stored.quizId = "" ∨ stored.lessonId ≠ lessonId then throw .lessonQuizCredentialInvalid
    else if (stored.expiresAt : ℤ) ≤ now / 1000000 then
      let _ ← consumeQuizCredential studentId credential lessonId
      throw .lessonQuizCredentialExpired
    else if ← consumeQuizCredential studentId credential lessonId then return ()
    else throw .lessonQuizCredentialInvalid

/-- The exercises of the lesson still without a right answer from this student. -/
def unansweredChallengeIds (studentId lessonId : String) : Handler (List String) := do
  let answeredRight ← get (.answeredRight studentId lessonId)
  let challenges ← get (.challenges lessonId)
  return (challenges.getD []).filter fun challenge => challenge ∉ answeredRight.getD ∅

/-! ## The streak -/

section

-- The day in Zurich of a moment.
variable (zurich : Instant → Date)

/-- The days on which a lesson was completed. -/
def completedDays (progress : List ProgressRow) : Finset Date :=
  (progress.filterMap fun item =>
    if item.status ≠ "completed" then none else item.completedAt.map zurich).toFinset

/-- `day - timedelta(days=1)` -/
def Date.previous (day : Date) : Except Raised Date :=
  if h : day.ordinal = 1 then .error .overflow
  else .ok ⟨day.ordinal - 1, by have := day.first; omega, by have := day.last; omega⟩

theorem Date.previous_eq_ok {day before : Date} :
    day.previous = .ok before ↔ before.ordinal = day.ordinal - 1 := by
  unfold Date.previous
  have hfirst := before.first
  split
  · rename_i h
    simp only [reduceCtorEq, false_iff]
    omega
  · rw [Except.ok.injEq]
    constructor
    · rintro rfl
      rfl
    · intro h
      cases before
      simp_all

theorem Date.previous_eq_error {day : Date} {e : Raised} :
    day.previous = .error e ↔ day.ordinal = 1 ∧ e = .overflow := by
  unfold Date.previous
  split
  · rename_i h
    simp [h, eq_comm]
  · rename_i h
    simp [h]

/-- The days in a row that end on `current`. -/
def countBack (days : Finset Date) (current : Date) : Except Raised ℕ :=
  if current ∈ days then
    match h : current.previous with
    | .error e => .error e
    | .ok before => (countBack days before).map (1 + ·)
  else .ok 0
termination_by current.ordinal.toNat
decreasing_by
  have hbefore := Date.previous_eq_ok.mp h
  have hfirst := current.first
  omega

def studyStreak (progress : List ProgressRow) (today : Date) (studyDays : List Date) :
    Except Raised ℕ :=
  let days := completedDays zurich progress ∪ studyDays.toFinset
  if days = ∅ then .ok 0
  else if today ∈ days then countBack days today
  else do
    let current ← today.previous
    if current ∈ days then countBack days current else return 0

/-! ## The request -/

/-- The stored progress of a student. -/
def isProgress (studentId : String) : Key → Bool
  | .evidence (.progress owner _) => owner = studentId
  | _ => false

/-- What a student did. -/
def isActivity (studentId : String) : Key → Bool
  | .evidence (.studyDay owner _) => owner = studentId
  | _ => false

def progressOf : (k : Key) × Row k → Option ProgressRow
  | ⟨.evidence (.progress _ _), row⟩ => some (row : Practice.Owned ProgressRow).item
  | _ => none

def studyDayOf : (k : Key) × Row k → Option Date
  | ⟨.evidence (.studyDay _ _), row⟩ => some (row : Practice.Owned StudyDayRow).item.day
  | _ => none

/-- Every finished lesson. -/
def completions (rows : List ((k : Key) × Row k)) : List ProgressRow :=
  (rows.filterMap progressOf).filter fun row => row.status = "completed" ∧ row.lessonId ≠ ""

/-- Every day on which the student did some work; none if they cannot be read. -/
def studyDays (studentId : String) : Handler (List Date) :=
  tryCatch (do
    let rows ← list (isActivity studentId)
    return rows.filterMap studyDayOf) fun _ => return []

structure CompleteLesson where
  studentId : String
  lesson : Lesson
  quizCredential : String
  now : Instant
  completedAt : Instant
  readAt : Instant

structure LessonCompleted where
  lessonId : String
  nextLessonId : Option String
  progressPoints : ℕ
  studyStreak : ℕ
  deriving DecidableEq

/-- The credential that a request carries. -/
def CompleteLesson.credential (r : CompleteLesson) : String :=
  String.ofList (strip r.quizCredential.toList)

/-- What has to hold before the completion is written. -/
def admitCompletion (r : CompleteLesson) : Handler Unit := do
  if r.credential ≠ "" then
    spendQuizCredential r.studentId r.lesson.lessonId r.credential r.now
  else
    let unanswered ← unansweredChallengeIds r.studentId r.lesson.lessonId
    if unanswered ≠ [] then throw (.lessonExercisesUnanswered unanswered.length)

/-- What is answered once the completion is written. The events that are recorded
first, and whose failure is ignored, are no rows of this model. -/
def completionView (r : CompleteLesson) : Handler LessonCompleted := do
  let lessons ← get (.lessons r.lesson.topicId)
  let done := completions (← list (isProgress r.studentId))
  let days ← studyDays r.studentId
  let streak ← RowStore.Handler.of (studyStreak zurich done (zurich r.readAt) days)
  let completed := insert r.lesson.lessonId (done.map ProgressRow.lessonId).toFinset
  return {
    lessonId := r.lesson.lessonId
    nextLessonId := ((((lessons.getD []).insertionSort fun a b => a.order ≤ b.order).map
      TopicLesson.lessonId).find? fun lesson => lesson ∉ completed)
    progressPoints := completed.card * 10
    studyStreak := streak }

def completeLesson (r : CompleteLesson) : Handler LessonCompleted := do
  admitCompletion r
  markLessonCompleted r.studentId r.lesson r.completedAt
  completionView zurich r

end

end Stoa.LessonCompletion
