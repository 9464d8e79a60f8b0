import Stoa.Model.Practice

/-! # The quiz of a lesson -/

namespace Stoa.Practice

open RowStore

/-! ## Rules -/

/-- Wrong answers a quiz forgives; the next one loses it. -/
def QUIZ_MAX_MISTAKES : ℕ := 1

def QUIZ_HEARTS : ℕ := QUIZ_MAX_MISTAKES + 1

def QUIZ_REVIEW_EXTRA : ℕ := 2

def QUIZ_MIN_SIZE : ℕ := 3

def QUIZ_TEST_OUT_SIZE : ℕ := 5

def QUIZ_SESSION_TTL_SECONDS : ℕ := 30 * 60

def QUIZ_CREDENTIAL_TTL_SECONDS : ℕ := 10 * 60

def TEST_OUT_QUIZ : String := "testOut"

/-- Both shuffles of the composition are left open. -/
structure Shuffles where
  review : List String → List String
  queue : List String → List String

def composeSkipQuiz (skipped correct : List String) (rng : Shuffles) : List String :=
  let extra := min correct.length (max QUIZ_REVIEW_EXTRA (QUIZ_MIN_SIZE - skipped.length))
  rng.queue (skipped ++ (rng.review correct).take extra)

def composeTestOutQuiz (exerciseIds : List String) (rng : Shuffles) : List String :=
  (rng.queue exerciseIds).take QUIZ_TEST_OUT_SIZE

def composeQuiz (kind : String) (exerciseIds answeredRight : List String) (rng : Shuffles) :
    List String :=
  if kind = TEST_OUT_QUIZ then composeTestOutQuiz exerciseIds rng
  else composeSkipQuiz (exerciseIds.filter fun item => item ∉ answeredRight)
    (exerciseIds.filter fun item => item ∈ answeredRight) rng

def quizLost (mistakes : ℕ) : Bool := QUIZ_MAX_MISTAKES < mistakes

def heartsLeft (mistakes : ℕ) : ℕ := QUIZ_HEARTS - mistakes

/-- What a session says of its progress. -/
structure QuizProgress where
  queue : List String
  mistakes : ℕ
  status : QuizStatus
  deriving DecidableEq

/-- What the mistakes and the rest of the queue make of a quiz. -/
def quizProgress (mistakes : ℕ) (queue : List String) : QuizProgress :=
  if quizLost mistakes then ⟨[], mistakes, .failed⟩
  else if queue = [] then ⟨[], mistakes, .passed⟩
  else ⟨queue, mistakes, .inProgress⟩

/-- The progress after an answer to `asked`, the first of the queue. -/
def afterQuizAnswer (mistakes : ℕ) (asked : String) (queue : List String) (correct : Bool) :
    QuizProgress :=
  if correct then quizProgress mistakes queue else quizProgress (mistakes + 1) (queue ++ [asked])

def QuizSession.advance (session : QuizSession) (progress : QuizProgress) : QuizSession :=
  { session with
    queue := progress.queue
    mistakes := progress.mistakes
    status := progress.status }

/-! ## Requests -/

/-- A request for a quiz, and what the catalog and the record of answers said to it. -/
structure StartLessonQuiz where
  studentId : String
  lessonId : String
  kind : String
  exerciseIds : List String
  answeredRight : List String
  rng : Shuffles
  quizId : String
  now : Instant

/-- A request to judge an answer. The clock is read again for the credential. -/
structure AnswerLessonQuiz where
  studentId : String
  lessonId : String
  quizId : String
  answer : String
  locale : String
  now : Instant
  credentialId : String
  credentialAt : Instant
  deriving DecidableEq

abbrev AnswerLessonQuiz.session (r : AnswerLessonQuiz) : PracticeKey := .quizSession r.studentId r.quizId

/-- What a passed quiz is worth. -/
def AnswerLessonQuiz.credential (r : AnswerLessonQuiz) : QuizCredential where
  credentialId := r.credentialId
  lessonId := r.lessonId
  quizId := r.quizId
  expiresAt := (r.credentialAt / 1000000).toNat + QUIZ_CREDENTIAL_TTL_SECONDS

structure QuizView where
  quizId : String
  lessonId : String
  kind : String
  status : QuizStatus
  heartsLeft : ℕ
  mistakesAllowed : ℕ
  remaining : ℕ
  /-- What the preview of the exercise is made of. -/
  exercise : Option Challenge
  correct : Option Bool
  credential : Option String
  deriving DecidableEq

inductive QuizCall where
  | start (r : StartLessonQuiz)
  | answer (r : AnswerLessonQuiz)

section

variable {F : Type} (judge : Challenge → String → String → Option Bool)

/-- The first exercise that resolves, and the queue from it on. -/
def resolveNext : List String → Handler F (Option (Challenge × String × List String))
  | [] => return none
  | id :: queue => do
    match ← get (.challenge id) with
    | some challenge => return some (challenge, id, queue)
    | none => resolveNext queue

/-- The exercise that a quiz in progress asks next. -/
def quizExercise (progress : QuizProgress) : Handler F (Option Challenge) :=
  match progress.queue, progress.status with
  | id :: _, .inProgress => get (.challenge id)
  | _, _ => return none

def quizView (session : QuizSession) (progress : QuizProgress) : Handler F QuizView := do
  let exercise ← quizExercise progress
  return {
    quizId := session.quizId
    lessonId := session.lessonId
    kind := session.kind
    status := progress.status
    heartsLeft := heartsLeft progress.mistakes
    mistakesAllowed := QUIZ_MAX_MISTAKES
    remaining := progress.queue.length
    exercise := exercise
    correct := none
    credential := none }

def startLessonQuiz (r : StartLessonQuiz) : Handler F QuizView := do
  let queue := composeQuiz r.kind r.exerciseIds r.answeredRight r.rng
  if queue = [] then violate .lessonQuizUnavailable
  let session : QuizSession := {
    quizId := r.quizId
    lessonId := r.lessonId
    kind := r.kind
    queue := queue
    mistakes := 0
    status := .inProgress
    createdAt := r.now
    expiresAt := (r.now / 1000000).toNat + QUIZ_SESSION_TTL_SECONDS }
  let _ ← putOnce (.quizSession r.studentId r.quizId) session r.studentId
  quizView session ⟨queue, 0, .inProgress⟩

def updateQuizSession (studentId quizId : String) (progress : QuizProgress) : Handler F Unit := do
  let generation ← writeGeneration studentId
  transact (updateTransaction (.quizSession studentId quizId)
    (fun session : QuizSession => session.advance progress) (fun _ => true) studentId generation)

/-- The answer to a request, with a credential if the quiz is passed. -/
def answeredView (r : AnswerLessonQuiz) (session : QuizSession) (progress : QuizProgress)
    (correct : Bool) : Handler F QuizView := do
  let view ← quizView session progress
  if progress.status = .passed then
    let _ ← putOnce (.quizCredential r.studentId r.credentialId) r.credential r.studentId
    return { view with correct := some correct, credential := some r.credentialId }
  return { view with correct := some correct }

/-- What a judged answer leads to. The usage event that is recorded after the
session, and whose failure is ignored, is no row of this model. -/
def countQuizAnswer (r : AnswerLessonQuiz) (session : QuizSession) (progress : QuizProgress)
    (correct : Bool) : Handler F QuizView := do
  updateQuizSession r.studentId r.quizId progress
  answeredView r session progress correct

/-- The rest of an answer, from the session that was read. -/
def answerSession (r : AnswerLessonQuiz) (session : QuizSession) : Handler F QuizView := do
  match ← resolveNext session.queue with
  | none =>
    updateQuizSession r.studentId r.quizId ⟨[], session.mistakes, .failed⟩
    violate .lessonQuizUnavailable
  | some (challenge, asked, queue) =>
    match judge challenge r.answer r.locale with
    | none => violate .practiceAnswerInvalid
    | some correct =>
      countQuizAnswer r session (afterQuizAnswer session.mistakes asked queue correct) correct

def answerLessonQuiz (r : AnswerLessonQuiz) : Handler F QuizView := do
  match ← get (.practice (.quizSession r.studentId r.quizId)) with
  | none => violate .lessonQuizNotFound
  | some (row : Owned QuizSession) =>
    if row.item.lessonId ≠ r.lessonId then violate .lessonQuizNotFound
    else if row.item.status ≠ .inProgress then violate .lessonQuizFinished
    else if (row.item.expiresAt : ℤ) ≤ r.now / 1000000 then violate .lessonQuizExpired
    else if row.item.queue = [] then violate .lessonQuizFinished
    else answerSession judge r row.item

/-- Any number of requests. Other code never touches a session, and only ever
removes credentials. -/
def quizService (F : Type) (judge : Challenge → String → String → Option Bool) (faults : Faults) :
    Service Key (Row F) QuizCall (Except Raised QuizView) where
  body
    | .start r => (startLessonQuiz r).run
    | .answer r => (answerLessonQuiz judge r).run
  mayStart := fun _ _ => True
  drift := fun t t' =>
    (∀ student quiz, t'.row (.practice (.quizSession student quiz)) =
      t.row (.practice (.quizSession student quiz))) ∧
    ∀ student credential, t'.row (.practice (.quizCredential student credential)) = none ∨
      t'.row (.practice (.quizCredential student credential)) =
        t.row (.practice (.quizCredential student credential))
  faults := faults

end

end Stoa.Practice
