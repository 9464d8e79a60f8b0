import Stoa.Model.Practice

/-! # Lightings and the star quiz

What the map, a passed star quiz and an acknowledgement store of a lighting, and
the quiz that lights a whole knowledge point. -/

namespace Stoa.Practice

open RowStore Mastery

/-! ## What is read of a student -/

/-- The facts that one request reads before it judges. -/
structure EvidenceRead where
  evidence : Evidence
  cooldowns : List StarQuizCooldown

/-- The pass and cooldown rows of a student. -/
def isOutcome (studentId : String) : Key → Bool
  | .practice (.starQuizPass owner _) => owner = studentId
  | .practice (.starQuizCooldown owner _ _) => owner = studentId
  | _ => false

/-- The ledger and the lightings of a student. -/
def isLighting (studentId : String) : Key → Bool
  | .practice (.litUnit owner _) => owner = studentId
  | .practice (.litLedger owner) => owner = studentId
  | _ => false

def isStarQuiz (studentId : String) : Key → Bool
  | .practice (.starQuiz owner _) => owner = studentId
  | _ => false

section

variable {F : Type}

def passOf : (k : Key) × Row F k → Option StarQuizPass
  | ⟨.practice (.starQuizPass _ _), row⟩ => some (row : Owned StarQuizPass).item
  | _ => none

def cooldownOf : (k : Key) × Row F k → Option StarQuizCooldown
  | ⟨.practice (.starQuizCooldown _ _ _), row⟩ => some (row : Owned StarQuizCooldown).item
  | _ => none

def litUnitOf : (k : Key) × Row F k → Option LitUnit
  | ⟨.practice (.litUnit _ _), row⟩ => some (row : Owned LitUnit).item
  | _ => none

def litLedgerOf : (k : Key) × Row F k → Option LitLedger
  | ⟨.practice (.litLedger _), row⟩ => some (row : Owned LitLedger).item
  | _ => none

def starQuizOf : (k : Key) × Row F k → Option StarQuiz
  | ⟨.practice (.starQuiz _ _), row⟩ => some (row : Owned StarQuiz).item
  | _ => none

def list (select : Key → Bool) : Handler F (List ((k : Key) × Row F k)) :=
  RowStore.Handler.list .dependency select

/-- The units whose quiz was passed. -/
def passes (outcomes : List ((k : Key) × Row F k)) : Finset String :=
  ((outcomes.filterMap passOf).map StarQuizPass.unitId).toFinset

def readEvidence (studentId : String) : Handler F EvidenceRead := do
  let completed ← get (.completedLessons studentId)
  let right ← get (.answeredRight studentId)
  let outcomes ← list (isOutcome studentId)
  return {
    evidence := {
      completedLessonIds := completed.getD ∅
      answeredRight := right.getD ∅
      starQuizPassed := passes outcomes }
    cooldowns := outcomes.filterMap cooldownOf }

/-! ## Lightings -/

def LitUnit.fact (row : LitUnit) : LitFact where
  unitId := row.unitId
  litAt := row.litAt
  source := row.litAtSource
  acknowledged := row.acknowledgedAt.isSome

def storedLitFacts (rows : List LitUnit) : OrderedDict String LitFact :=
  OrderedDict.ofPairs ((rows.filter fun row => row.unitId ≠ "").map fun row => (row.unitId, row.fact))

/-- The write refuses to overwrite an existing one. -/
def recordLitUnit (studentId unitId : String) (litAt : Instant) (source : LitSource) :
    Handler F Unit := do
  let _ ← putOnce (.litUnit studentId unitId)
    ({ unitId := unitId, litAt := litAt, litAtSource := source } : LitUnit) studentId
  return ()

def openLitLedger (studentId : String) (at_ : Instant) : Handler F Unit := do
  let _ ← putOnce (.litLedger studentId) (⟨at_⟩ : LitLedger) studentId
  return ()

/-- Write the new lightings down, the ledger last. -/
def recordLightings (studentId : String) (ledgerOpen : Bool) (now : Instant) :
    List LitFact → Handler F Unit
  | [] => if ledgerOpen then return () else openLitLedger studentId now
  | fact :: fresh => do
    recordLitUnit studentId fact.unitId fact.litAt fact.source
    recordLightings studentId ledgerOpen now fresh

structure MapRead where
  studentId : String
  now : Instant

/-- The units that the map shows. -/
def starIds (states : OrderedDict String UnitMastery) : List String :=
  (states.entries.filter fun e => 0 < e.2.lessonCount).map Prod.fst

/-- What `knowledge_map` does about lightings: it answers from the facts it decided
on, whether or not they could be written. -/
def readMap (content : Content) (r : MapRead) : Handler F (List String) := do
  let read ← readEvidence r.studentId
  let states := unitStates content read.evidence
  let rows ← list (isLighting r.studentId)
  let ledgerOpen := (rows.filterMap litLedgerOf).isEmpty = false
  let (facts, fresh) := resolveLitFacts ((litUnitIds states.values).insertionSort (· ≤ ·))
    (storedLitFacts (rows.filterMap litUnitOf)) ledgerOpen r.now
  attemptOr (recordLightings r.studentId ledgerOpen r.now fresh) fun _ => return ()
  return unacknowledgedLit facts (starIds states)

structure LitAcknowledgement where
  studentId : String
  unitIds : List String
  at_ : Instant

/-- Confirm one lighting after the other; one that is not there is left out. -/
def acknowledgeEach (studentId : String) (generation : ℤ) (at_ : Instant) :
    List String → Handler F (List String)
  | [] => return []
  | unitId :: unitIds => do
    let done ← RowStore.Handler.submit (updateTransaction (.litUnit studentId unitId)
      (fun row : LitUnit => { row with acknowledgedAt := some at_ }) (fun _ => true) studentId generation)
    let confirmed ← acknowledgeEach studentId generation at_ unitIds
    return if done then unitId :: confirmed else confirmed

def acknowledgeLitUnits (r : LitAcknowledgement) : Handler F (List String) := do
  let generation ← writeGeneration r.studentId
  acknowledgeEach r.studentId generation r.at_ (fromKeys (r.unitIds.filter (· ≠ "")))

/-! ## The rules of the star quiz -/

/-- Wrong answers a star quiz forgives; the next one loses it. -/
def STAR_QUIZ_MAX_MISTAKES : ℕ := 1

/-- How long after a lost quiz the same star can be taken again. -/
def STAR_QUIZ_COOLDOWN : ℤ := 24 * 60 * 60 * 1000000

def STAR_QUIZ_SESSION_TTL : ℤ := 30 * 60 * 1000000

structure StarQuizOutcome where
  status : QuizStatus
  mistakes : ℕ
  /-- Exercises still to be asked, in order; empty once the paper is over. -/
  remaining : List String
  deriving DecidableEq

/-- Where a paper stands once `answers` have been given, in order. -/
def afterAnswer (paper : List String) (answers : List Bool) : StarQuizOutcome :=
  let mistakes := answers.countP fun correct => !correct
  let remaining := paper.drop answers.length
  if STAR_QUIZ_MAX_MISTAKES < mistakes then ⟨.failed, mistakes, []⟩
  else if remaining = [] then ⟨.passed, mistakes, []⟩
  else ⟨.inProgress, mistakes, remaining⟩

def retryAt (lostAt : Instant) : Instant := lostAt + STAR_QUIZ_COOLDOWN

/-- Per unit, when a lost star can be taken again; only the ones not yet open. -/
def retryTimes (rows : List StarQuizCooldown) (now : Instant) : OrderedDict String Instant :=
  OrderedDict.ofPairs ((rows.filter fun row => row.unitId ≠ "" ∧ now < row.retryAt).map fun row =>
    (row.unitId, row.retryAt))

/-! ## The paper -/

/-- How many exercises a paper asks, when the star has that many. -/
def STAR_QUIZ_MIN_SIZE : ℕ := 6

def STAR_QUIZ_MAX_SIZE : ℕ := 10

/-- What a generator can answer: one item of a list for every lesson in turn, and
some order of the rest. -/
structure PaperRng where
  choice : ℕ → List String → String
  choice_mem : ∀ index ids, ids ≠ [] → choice index ids ∈ ids
  shuffle : List (ℕ × String) → List (ℕ × String)
  shuffle_perm : ∀ rest, (shuffle rest).Perm rest

/-- The lessons that have an exercise, each exercise once in its lesson. -/
def paperLessons (exercisesByLesson : List (List String)) : List (List String) :=
  (exercisesByLesson.filter (· ≠ [])).map fromKeys

def nominalSize (lessons : ℕ) : ℕ := min STAR_QUIZ_MAX_SIZE (max STAR_QUIZ_MIN_SIZE lessons)

def paperSize (lessons : List (List String)) : ℕ :=
  min (lessons.map List.length).sum (max lessons.length (nominalSize lessons.length))

/-- The exercises chosen for the lesson at a position. -/
def chosenFor (chosen : List (Finset String)) (index : ℕ) : Finset String := chosen.getD index ∅

/-- One of every lesson. -/
def firstChoices (rng : PaperRng) (lessons : List (List String)) : List (Finset String) :=
  lessons.mapIdx fun index ids => {rng.choice index ids}

/-- What is left of the lessons, every exercise with the position of its lesson. -/
def restOf (lessons : List (List String)) (chosen : List (Finset String)) : List (ℕ × String) :=
  lessons.zipIdx.flatMap fun lesson =>
    (lesson.1.filter fun item => item ∉ chosenFor chosen lesson.2).map fun item => (lesson.2, item)

def chooseAlso (chosen : List (Finset String)) : List (ℕ × String) → List (Finset String)
  | [] => chosen
  | (index, item) :: more => chooseAlso (chosen.modify index (insert item)) more

/-- The exercises of the paper, lesson by lesson. -/
def composeByLesson (exercisesByLesson : List (List String)) (rng : PaperRng) :
    List (List String) :=
  let lessons := paperLessons exercisesByLesson
  let first := firstChoices rng lessons
  let rest := rng.shuffle (restOf lessons first)
  let chosen := chooseAlso first (rest.take (paperSize lessons - lessons.length))
  lessons.zipIdx.map fun lesson => lesson.1.filter fun item => item ∈ chosenFor chosen lesson.2

/-- One exercise from every lesson that has one, topped up at random. -/
def compose (exercisesByLesson : List (List String)) (rng : PaperRng) : List String :=
  (composeByLesson exercisesByLesson rng).flatten

def StarQuiz.outcome (session : StarQuiz) : StarQuizOutcome :=
  afterAnswer session.paper (session.answers.map StarQuizAnswered.correct)

/-! ## Requests -/

structure StarQuizView where
  quizId : String
  unitId : String
  status : QuizStatus
  total : ℕ
  answered : ℕ
  mistakes : ℕ
  mistakesAllowed : ℕ
  expiresAt : ℕ
  /-- What the preview of the exercise is made of. -/
  exercise : Option Challenge
  retryAt : Option Instant
  correct : Option Bool
  deriving DecidableEq

/-- A request for a quiz, with the paper that is drawn from the exercises of each
lesson. -/
structure StartStarQuiz where
  studentId : String
  unitId : String
  compose : List (List String) → List String
  quizId : String
  now : Instant

/-- A request to judge an answer. The clock is read after the session. -/
structure AnswerStarQuiz where
  studentId : String
  unitId : String
  quizId : String
  exerciseId : String
  answer : String
  locale : String
  now : Instant
  deriving DecidableEq

/-- The exercise that a quiz in progress asks next. -/
def starQuizExercise (session : StarQuiz) : Handler F (Option Challenge) :=
  match session.outcome.status, session.outcome.remaining with
  | .inProgress, id :: _ => get (.challenge id)
  | _, _ => return none

def starQuizView (session : StarQuiz) : Handler F StarQuizView := do
  let exercise ← starQuizExercise session
  return {
    quizId := session.quizId
    unitId := session.unitId
    status := session.outcome.status
    total := session.paper.length
    answered := session.answers.length
    mistakes := session.outcome.mistakes
    mistakesAllowed := STAR_QUIZ_MAX_MISTAKES
    expiresAt := session.expiresAt
    exercise := exercise
    retryAt := none
    correct := none }

/-- The paper of a unit that is still open. -/
def openPaper (rows : List StarQuiz) (unitId : String) (now : Instant) : Option StarQuiz :=
  rows.find? fun session => session.unitId = unitId ∧ session.status = .inProgress ∧
    now / 1000000 < session.expiresAt

def newStarQuiz (r : StartStarQuiz) (paper : List String) : StarQuiz where
  quizId := r.quizId
  unitId := r.unitId
  paper := paper
  answers := []
  answered := 0
  status := .inProgress
  createdAt := r.now
  expiresAt := ((r.now + STAR_QUIZ_SESSION_TTL) / 1000000).toNat

def startStarQuiz (content : Content) (r : StartStarQuiz) : Handler F StarQuizView := do
  let read ← readEvidence r.studentId
  match (unitStates content read.evidence).get? r.unitId with
  | none => violate .starQuizUnknownStar
  | some judged =>
    if judged.lessonCount = 0 then violate .starQuizUnknownStar
    else if judged.state = .lit then violate .starQuizAlreadyLit
    else
      match (retryTimes read.cooldowns r.now).get? r.unitId with
      | some retry => throw (.violation .starQuizCoolingDown (some retry))
      | none =>
        let rows ← list (isStarQuiz r.studentId)
        match openPaper (rows.filterMap starQuizOf) r.unitId r.now with
        | some session => starQuizView session
        | none =>
          let paper := r.compose (starQuizExercises content r.unitId)
          if paper = [] then violate .starQuizUnavailable
          let _ ← putOnce (.starQuiz r.studentId r.quizId) (newStarQuiz r paper) r.studentId
          starQuizView (newStarQuiz r paper)

/-- The first result of an exercise that is answered already. -/
def replayed (session : StarQuiz) (exerciseId : String) : Option StarQuizAnswered :=
  session.answers.find? fun answer => answer.exerciseId = exerciseId

def replayView (session : StarQuiz) (first : StarQuizAnswered) : Handler F StarQuizView := do
  let view ← starQuizView session
  return { view with correct := some first.correct }

def StarQuiz.withAnswers (session : StarQuiz) (answers : List StarQuizAnswered) (status : QuizStatus) :
    StarQuiz :=
  { session with
    answers := answers
    answered := answers.length
    status := status }

/-- Write the answers, on condition that nobody answered in between. -/
def recordStarQuizAnswer (studentId quizId : String) (answers : List StarQuizAnswered)
    (status : QuizStatus) : Handler F Unit := do
  let generation ← writeGeneration studentId
  if ← RowStore.Handler.submit (updateTransaction (.starQuiz studentId quizId)
      (fun session : StarQuiz => session.withAnswers answers status)
      (fun session : StarQuiz => session.answered + 1 = answers.length) studentId generation) then
    return ()
  else throw (.starQuizAnswerConflict quizId)

def putStarQuizCooldown (studentId unitId quizId : String) (retry : Instant) : Handler F Unit := do
  let _ ← putOnce (.starQuizCooldown studentId unitId quizId)
    (⟨unitId, quizId, retry, (retry / 1000000).toNat⟩ : StarQuizCooldown) studentId
  return ()

/-- Whether this was the first pass of the star. -/
def putStarQuizPass (studentId unitId quizId : String) (passedAt : Instant) : Handler F Bool :=
  attemptOr (do
    let _ ← putOnce (.starQuizPass studentId unitId) (⟨unitId, quizId, passedAt⟩ : StarQuizPass) studentId
    return true)
    fun e => do
      match ← get (.practice (.starQuizPass studentId unitId)) with
      | none => throw e
      | some _ => return false

variable [Floating F]

/-- Every answer of a passed paper is scheduled for review. -/
def scheduleReviews (studentId : String) (day : Instant → String) :
    List StarQuizAnswered → Handler F Unit
  | [] => return ()
  | answer :: answers => do
    if let some challenge ← get (.challenge answer.exerciseId) then
      let _ ← recordAnswer ⟨studentId, challenge, answer.correct, answer.answeredAt, day answer.answeredAt⟩
    scheduleReviews studentId day answers

structure StarQuizPassed where
  studentId : String
  unitId : String
  quizId : String
  answers : List StarQuizAnswered
  now : Instant

/-- What passing does. A lighting that is there already keeps its moment. -/
def lightByStarQuiz (day : Instant → String) (r : StarQuizPassed) : Handler F Unit := do
  let _ ← putStarQuizPass r.studentId r.unitId r.quizId r.now
  attemptOr (recordLitUnit r.studentId r.unitId r.now .quiz) fun _ => return ()
  scheduleReviews r.studentId day r.answers

/-- What follows a recorded answer. The usage event that is recorded after it, and
whose failure is ignored, is no row of this model. -/
def concludeStarQuiz (day : Instant → String) (r : AnswerStarQuiz) (session : StarQuiz) :
    Handler F (Option Instant) :=
  match session.outcome.status with
  | .failed => do
    putStarQuizCooldown r.studentId r.unitId r.quizId (retryAt r.now)
    return some (retryAt r.now)
  | .passed => do
    lightByStarQuiz day ⟨r.studentId, r.unitId, r.quizId, session.answers, r.now⟩
    return none
  | .inProgress => return none

/-- The session after one more answer to `asking`. -/
def StarQuiz.answer (session : StarQuiz) (asking : String) (correct : Bool) (now : Instant) : StarQuiz :=
  let answers := session.answers ++ [⟨asking, correct, now⟩]
  session.withAnswers answers (afterAnswer session.paper (answers.map StarQuizAnswered.correct)).status

/-- The rest of an answer to the exercise that the session asks. -/
def countStarQuizAnswer (day : Instant → String) (r : AnswerStarQuiz) (session : StarQuiz)
    (correct : Bool) : Handler F StarQuizView := do
  let next := session.answer r.exerciseId correct r.now
  let recorded ← tryCatch (do
    recordStarQuizAnswer r.studentId r.quizId next.answers next.status
    return true) fun
    | .starQuizAnswerConflict _ => return false
    | e => throw e
  if recorded then
    let retry ← concludeStarQuiz day r next
    let view ← starQuizView next
    return { view with correct := some correct, retryAt := retry }
  else
    let current := (← get (.practice (.starQuiz r.studentId r.quizId))).elim session
      fun row : Owned StarQuiz => row.item
    match replayed current r.exerciseId with
    | some first => replayView current first
    | none => violate .starQuizOutOfOrder

def answerStarQuiz (judge : Challenge → String → String → Option Bool) (day : Instant → String)
    (r : AnswerStarQuiz) : Handler F StarQuizView := do
  match ← get (.practice (.starQuiz r.studentId r.quizId)) with
  | none => violate .starQuizNotFound
  | some (row : Owned StarQuiz) =>
    let session := row.item
    if session.unitId ≠ r.unitId then violate .starQuizNotFound
    else
      match replayed session r.exerciseId with
      | some first => replayView session first
      | none =>
        if session.status ≠ .inProgress then violate .starQuizFinished
        else if (session.expiresAt : ℤ) ≤ r.now / 1000000 then violate .starQuizExpired
        else if session.paper[session.answers.length]? ≠ some r.exerciseId then violate .starQuizOutOfOrder
        else
          match ← get (.challenge r.exerciseId) with
          | none => violate .starQuizUnavailable
          | some challenge =>
            match judge challenge r.answer r.locale with
            | none => violate .practiceAnswerInvalid
            | some correct => countStarQuizAnswer day r session correct

end

/-! ## Services -/

inductive LightingCall where
  | readMap (r : MapRead)
  | passed (r : StarQuizPassed)
  | acknowledge (r : LitAcknowledgement)

/-- Map reads, passed star quizzes and acknowledgements. Other code adds to what
the student has done, and leaves the lightings alone. -/
def lightingService (F : Type) [Floating F] (content : Content) (day : Instant → String)
    (faults : Faults) : Service Key (Row F) LightingCall (Except Raised (List String)) where
  body
    | .readMap r => (readMap content r).run
    | .passed r => (do
        lightByStarQuiz day r
        return [] : Handler F (List String)).run
    | .acknowledge r => (acknowledgeLitUnits r).run
  mayStart := fun _ _ => True
  drift := fun t t' =>
    (∀ student unit, t'.row (.practice (.litUnit student unit)) =
      t.row (.practice (.litUnit student unit))) ∧
    (∀ student, t'.row (.practice (.litLedger student)) = t.row (.practice (.litLedger student))) ∧
    (∀ student unit, t'.row (.practice (.starQuizPass student unit)) =
      t.row (.practice (.starQuizPass student unit))) ∧
    ∀ student, (t.row (.completedLessons student)).getD ∅ ⊆ (t'.row (.completedLessons student)).getD ∅ ∧
      (t.row (.answeredRight student)).getD ∅ ⊆ (t'.row (.answeredRight student)).getD ∅
  faults := faults

inductive StarQuizCall where
  | start (r : StartStarQuiz)
  | answer (r : AnswerStarQuiz)

end Stoa.Practice
