import Stoa.Model.AccountFence
import Stoa.Model.Mastery
import Stoa.Model.ReviewScheduler
import Stoa.Store.Handler
import Stoa.Store.Interleaving
import Mathlib.Algebra.GroupWithZero.Nat

/-! # Practice rows

Everything that practice stores of a student is written behind the fence of the
account, as one row that is put once or updated in place. -/

namespace Stoa.Practice

open RowStore

/-! ## Rows -/

structure StudyDay where
  day : String
  lastKind : String
  lastSeenAt : Instant
  deriving DecidableEq

/-- The row of one question's schedule. -/
structure Card (F : Type) where
  studentId : String
  challengeId : String
  lessonId : String
  subjectId : String
  topicId : String
  stability : F
  difficulty : F
  dueAt : Instant
  lastReviewedAt : Option Instant
  reps : ℕ
  lapses : ℕ

inductive QuizStatus where
  | inProgress
  | passed
  | failed
  deriving DecidableEq, Repr

structure QuizSession where
  quizId : String
  lessonId : String
  kind : String
  queue : List String
  mistakes : ℕ
  status : QuizStatus
  createdAt : Instant
  expiresAt : ℕ
  deriving DecidableEq

structure QuizCredential where
  credentialId : String
  lessonId : String
  quizId : String
  expiresAt : ℕ
  deriving DecidableEq

structure StarQuizAnswered where
  exerciseId : String
  correct : Bool
  answeredAt : Instant
  deriving DecidableEq

structure StarQuiz where
  quizId : String
  unitId : String
  paper : List String
  answers : List StarQuizAnswered
  answered : ℕ
  status : QuizStatus
  createdAt : Instant
  expiresAt : ℕ
  deriving DecidableEq

structure StarQuizCooldown where
  unitId : String
  quizId : String
  retryAt : Instant
  expiresAt : ℕ
  deriving DecidableEq

structure StarQuizPass where
  unitId : String
  quizId : String
  passedAt : Instant
  deriving DecidableEq

structure LitUnit where
  unitId : String
  litAt : Instant
  litAtSource : Mastery.LitSource
  acknowledgedAt : Option Instant := none
  deriving DecidableEq

structure LitLedger where
  openedAt : Instant
  deriving DecidableEq

/-- A row that belongs to a student. -/
inductive PracticeKey where
  | studyDay (studentId day : String)
  | card (studentId challengeId : String)
  | quizSession (studentId quizId : String)
  | quizCredential (studentId credentialId : String)
  | starQuiz (studentId quizId : String)
  | starQuizCooldown (studentId unitId quizId : String)
  | starQuizPass (studentId unitId : String)
  | litUnit (studentId unitId : String)
  | litLedger (studentId : String)
  deriving DecidableEq

inductive Key where
  | accountFence (ownerId : String)
  /-- What `get_challenge` resolves an id to. -/
  | challenge (challengeId : String)
  /-- The lessons a student has finished: what the progress rows come to. -/
  | completedLessons (studentId : String)
  /-- The exercises a student has answered right: what the attempts come to. -/
  | answeredRight (studentId : String)
  | practice (k : PracticeKey)
  deriving DecidableEq

abbrev Item (F : Type) : PracticeKey → Type
  | .studyDay _ _ => StudyDay
  | .card _ _ => Card F
  | .quizSession _ _ => QuizSession
  | .quizCredential _ _ => QuizCredential
  | .starQuiz _ _ => StarQuiz
  | .starQuizCooldown _ _ _ => StarQuizCooldown
  | .starQuizPass _ _ => StarQuizPass
  | .litUnit _ _ => LitUnit
  | .litLedger _ => LitLedger

/-- A stored item, with the owner and the fence it was put behind. -/
structure Owned (α : Type) where
  ownerId : String
  accountFenceGeneration : ℤ
  item : α

/-- An exercise, as far as it is read here; `content` is what answers are judged on. -/
structure Challenge where
  challengeId : String
  lessonId : String
  subjectId : String
  topicId : String
  content : String
  deriving DecidableEq

abbrev Row (F : Type) : Key → Type
  | .accountFence _ => FenceRow
  | .challenge _ => Challenge
  | .completedLessons _ => Finset String
  | .answeredRight _ => Finset String
  | .practice k => Owned (Item F k)

/-! ## Access -/

inductive PracticeCode where
  | lessonQuizNotFound
  | lessonQuizFinished
  | lessonQuizExpired
  | lessonQuizUnavailable
  | practiceAnswerInvalid
  | starQuizNotFound
  | starQuizFinished
  | starQuizExpired
  | starQuizOutOfOrder
  | starQuizUnavailable
  | starQuizUnknownStar
  | starQuizAlreadyLit
  | starQuizCoolingDown
  deriving DecidableEq, Repr

inductive Raised where
  /-- The table did not answer, or refused. -/
  | dependency
  | violation (code : PracticeCode) (retryAt : Option Instant)
  | starQuizAnswerConflict (quizId : String)
  deriving DecidableEq

abbrev Handler (F : Type) (α : Type) := RowStore.Handler Key (Row F) Raised α

section

variable {F : Type}

def get (k : Key) : Handler F (Option (Row F k)) := RowStore.Handler.get Raised.dependency k

def violate {α : Type} (code : PracticeCode) : Handler F α := throw (.violation code none)

/-- The first computation, or what follows from what it raised. -/
def attemptOr {α : Type} (x : Handler F α) (f : Raised → Handler F α) : Handler F α := tryCatch x f

/-- `_write_generation` -/
def writeGeneration (ownerId : String) : Handler F ℤ := do
  match requireActiveAccountFence (← get (Key.accountFence ownerId)) none with
  | none => throw .dependency
  | some generation => return generation

def transact (ops : List (Write Key (Row F))) : Handler F Unit := do
  if ← RowStore.Handler.submit ops then return () else throw .dependency

def fenceCheck (ownerId : String) (generation : ℤ) : Write Key (Row F) :=
  .check (.accountFence ownerId) (activeFenceCondition (some generation))

/-- `build_practice_write_transaction` in the mode `put`. -/
def putTransaction (k : PracticeKey) (item : Item F k) (ownerId : String) (generation : ℤ) :
    List (Write Key (Row F)) := [
  fenceCheck ownerId generation,
  .putNew (.practice k) (⟨ownerId, generation, item⟩ : Owned (Item F k))]

/-- `build_practice_write_transaction` in the mode `update`, with a condition that
its caller adds. -/
def updateTransaction (k : PracticeKey) (updates : Item F k → Item F k)
    (condition : Item F k → Bool) (ownerId : String) (generation : ℤ) : List (Write Key (Row F)) := [
  fenceCheck ownerId generation,
  .modify (.practice k)
    (fun row : Owned (Item F k) => { row with item := updates row.item })
    fun row : Owned (Item F k) => row.ownerId = ownerId ∧ condition row.item]

/-- Put one row once, behind the account fence: `_quiz_write`, `_activity_write`. -/
def putOnce (k : PracticeKey) (item : Item F k) (ownerId : String) : Handler F (Owned (Item F k)) := do
  let generation ← writeGeneration ownerId
  transact (putTransaction k item ownerId generation)
  return ⟨ownerId, generation, item⟩

/-- Put a row, or replace the one that is there. -/
def save (k : PracticeKey) (item : Item F k) (ownerId : String) : Handler F (Owned (Item F k)) := do
  let generation ← writeGeneration ownerId
  match ← get (.practice k) with
  | none => transact (putTransaction k item ownerId generation)
  | some _ => transact (updateTransaction k (fun _ => item) (fun _ => true) ownerId generation)
  return ⟨ownerId, generation, item⟩

def recordStudyDay (studentId day kind : String) (at_ : Instant) : Handler F Unit := do
  let _ ← save (.studyDay studentId day) (⟨day, kind, at_⟩ : StudyDay) studentId
  return ()

end

/-! ## The review loop -/

section

variable {F : Type} [Floating F]

def stateFromItem (item : Card F) : CardState F where
  stability := item.stability
  difficulty := item.difficulty
  dueAt := item.dueAt
  lastReviewedAt := item.lastReviewedAt
  reps := item.reps
  lapses := item.lapses

/-- The arguments of `record_answer`: the answered exercise, whether it was
answered right, when, and on which day in Zurich. -/
structure AnswerRequest where
  studentId : String
  challenge : Challenge
  correct : Bool
  answeredAt : Instant
  day : String

def AnswerRequest.key (r : AnswerRequest) : PracticeKey :=
  .card r.studentId r.challenge.challengeId

def itemFromState (r : AnswerRequest) (state : CardState F) : Card F where
  studentId := r.studentId
  challengeId := r.challenge.challengeId
  lessonId := r.challenge.lessonId
  subjectId := r.challenge.subjectId
  topicId := r.challenge.topicId
  stability := Floating.decimal state.stability
  difficulty := Floating.decimal state.difficulty
  dueAt := state.dueAt
  lastReviewedAt := state.lastReviewedAt
  reps := state.reps
  lapses := state.lapses

/-- The card after one more answer. -/
def AnswerRequest.fold (r : AnswerRequest) (stored : Option (Card F)) : Card F :=
  let state :=
    match stored with
    | some card => stateFromItem card
    | none => newCard r.answeredAt
  itemFromState r (review state (gradeForAnswer r.correct) r.answeredAt)

def recordAnswer (r : AnswerRequest) : Handler F (Option (Owned (Card F))) := do
  if r.challenge.challengeId = "" then return none
  attemptOr (recordStudyDay r.studentId r.day "practice" r.answeredAt) fun _ => return ()
  attemptOr (do
    let stored ← get (.practice (.card r.studentId r.challenge.challengeId))
    let card := r.fold (stored.map Owned.item)
    some <$> save (.card r.studentId r.challenge.challengeId) card r.studentId)
    fun _ => return none

/-- Any number of answers, and other code that leaves the cards alone. -/
def reviewService (F : Type) [Floating F] (faults : Faults) :
    Service Key (Row F) AnswerRequest (Except Raised (Option (Owned (Card F)))) where
  body := fun r => (recordAnswer r).run
  mayStart := fun _ _ => True
  drift := fun t t' => ∀ student challenge,
    t'.row (.practice (.card student challenge)) = t.row (.practice (.card student challenge))
  faults := faults

end

end Stoa.Practice
