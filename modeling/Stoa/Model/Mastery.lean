import Stoa.Data.OrderedDict
import Stoa.Model.Values
import Mathlib.Data.Finset.Basic
import Mathlib.Data.List.Sort
import Mathlib.Data.Rat.Defs
import Mathlib.Algebra.Order.Ring.Rat

/-! # Per-unit learning state

What the star map draws a knowledge point as, judged from the content and from
one student's evidence. -/

namespace Stoa.Mastery

/-! ## Content -/

structure CatalogUnit where
  id : String
  topicId : String
  subjectId : String
  title : String
  order : ℤ
  /-- What the row states; `none` when that is no list. -/
  prerequisiteUnitIds : Option (List String)
  /-- The place the layout script wrote on the row. -/
  laidOut : Option (ℚ × ℚ) := none
  deriving DecidableEq

structure Lesson where
  id : String
  unitId : String
  title : String
  extension : Bool
  order : ℤ
  requiresPoints : List String
  exerciseCount : ℤ
  deriving DecidableEq

/-- One entry of the exercise index. -/
structure Exercise where
  id : String
  skills : List String
  knowledgePoint : String
  deriving DecidableEq

structure Content where
  units : List CatalogUnit
  lessons : List Lesson
  /-- The live exercises of a lesson. -/
  exercises : String → List Exercise
  /-- The skills each unit owns, in vocabulary order. -/
  skillIdsByUnit : String → List String

def Content.exerciseIds (content : Content) (lessonId : String) : List String :=
  (content.exercises lessonId).map Exercise.id

/-- What the judgement reads of a student. -/
structure Evidence where
  completedLessonIds : Finset String
  answeredRight : Finset String
  starQuizPassed : Finset String

/-! ## Units -/

inductive LearningState where
  | ready
  | inProgress
  | lit
  deriving DecidableEq, Repr

def LearningState.rank : LearningState → ℕ
  | ready => 0
  | inProgress => 1
  | lit => 2

instance : LE LearningState := ⟨fun a b => a.rank ≤ b.rank⟩

instance (a b : LearningState) : Decidable (a ≤ b) := inferInstanceAs (Decidable (a.rank ≤ b.rank))

structure NextLesson where
  lessonId : String
  title : String
  deriving DecidableEq

structure UnitMastery where
  unitId : String
  topicId : String
  subjectId : String
  state : LearningState
  /-- Completed active lessons over active lessons. -/
  progress : ℚ
  unmetExercises : ℕ
  lessonCount : ℕ
  lessonsDone : ℕ
  nextLesson : Option NextLesson
  unlitPrerequisiteIds : List String
  deriving DecidableEq

/-- The lessons a unit lights from: all but its extensions, or all if every one is. -/
def coreLessons (lessons : List Lesson) : List Lesson :=
  let core := lessons.filter fun lesson => !lesson.extension
  if core = [] then lessons else core

def starQuizExercises (content : Content) (unitId : String) : List (List String) :=
  (coreLessons (content.lessons.filter fun lesson => lesson.unitId = unitId)).map fun lesson =>
    content.exerciseIds lesson.id

def lessonExerciseIds (lessons : List Lesson) (exercisesByLesson : OrderedDict String (List String)) :
    List String :=
  lessons.flatMap fun lesson => exercisesByLesson.getD lesson.id []

def judgeUnit (unit : CatalogUnit) (lessons : List Lesson)
    (exercisesByLesson : OrderedDict String (List String))
    (completedLessonIds exercisesAnsweredRight : Finset String) : UnitMastery :=
  let core := coreLessons lessons
  let extension :=
    if core.length = lessons.length then [] else lessons.filter fun lesson => lesson.extension
  let lessonCount := core.length
  let lessonsDone := (core.filter fun lesson => lesson.id ∈ completedLessonIds).length
  let exerciseIds := lessonExerciseIds core exercisesByLesson
  let unmet := exerciseIds.filter fun item => item ∉ exercisesAnsweredRight
  let everyLessonDone := 0 < lessonCount ∧ lessonsDone = lessonCount
  let remaining := (core ++ extension).filter fun lesson => lesson.id ∉ completedLessonIds
  { unitId := unit.id
    topicId := unit.topicId
    subjectId := unit.subjectId
    state :=
      if everyLessonDone ∧ unmet = [] then .lit
      else if 0 < lessonsDone ∨ unmet.length < exerciseIds.length then .inProgress
      else .ready
    progress := if lessonCount = 0 then 0 else lessonsDone / lessonCount
    unmetExercises := unmet.length
    lessonCount := lessonCount
    lessonsDone := lessonsDone
    nextLesson := remaining.head?.map fun lesson => ⟨lesson.id, lesson.title⟩
    unlitPrerequisiteIds := [] }

/-- `list(dict.fromkeys(items))`: the items, each where it comes first. -/
def fromKeys (items : List String) : List String :=
  (OrderedDict.ofPairs (items.map fun item => (item, ()))).keys

def unlitPrerequisiteIds (unit : CatalogUnit) (unitId : String) (lit learnable : List String) :
    List String :=
  match unit.prerequisiteUnitIds with
  | none => []
  | some stated => (fromKeys stated).filter fun item =>
      item ≠ "" ∧ item ≠ unitId ∧ item ∈ learnable ∧ item ∉ lit

/-- Every unit as its lessons make it. -/
def judgedUnits (content : Content) (evidence : Evidence) : OrderedDict String UnitMastery :=
  let exercisesByLesson := OrderedDict.ofPairs
    (content.lessons.map fun lesson => (lesson.id, content.exerciseIds lesson.id))
  OrderedDict.ofPairs (content.units.map fun unit => (unit.id, judgeUnit unit
    (content.lessons.filter fun lesson => lesson.unitId = unit.id) exercisesByLesson
    evidence.completedLessonIds evidence.answeredRight))

/-- A star whose quiz was passed is lit, and stays lit. -/
def litByQuiz (content : Content) (evidence : Evidence) : OrderedDict String UnitMastery :=
  (judgedUnits content evidence).mapValues fun unitId state =>
    if unitId ∈ evidence.starQuizPassed then { state with state := .lit } else state

/-- A unit lights whether or not anything was supposed to come first, so what is
lit is settled before any prerequisite is read. -/
def litIds (content : Content) (evidence : Evidence) : List String :=
  ((litByQuiz content evidence).entries.filter fun e => e.2.state = .lit).map Prod.fst

def learnableIds (content : Content) (evidence : Evidence) : List String :=
  ((litByQuiz content evidence).entries.filter fun e => 0 < e.2.lessonCount).map Prod.fst

def withPrerequisites (content : Content) (evidence : Evidence) (unit : CatalogUnit)
    (state : UnitMastery) : UnitMastery :=
  if state.state = .lit then state
  else
    let unlit := unlitPrerequisiteIds unit unit.id (litIds content evidence)
      (learnableIds content evidence)
    { state with unlitPrerequisiteIds := unlit }

def unitStates (content : Content) (evidence : Evidence) : OrderedDict String UnitMastery :=
  OrderedDict.ofPairs (content.units.filterMap fun unit =>
    ((litByQuiz content evidence).get? unit.id).map fun state =>
      (unit.id, withPrerequisites content evidence unit state))

def litUnitIds (states : List UnitMastery) : List String :=
  (states.filter fun item => item.state = .lit).map UnitMastery.unitId

/-! ## Lightings -/

/-- Where a stored lighting came from: seen as it happened, already true when the
ledger was opened, or a passed star quiz. -/
inductive LitSource where
  | observed
  | backfilled
  | quiz
  deriving DecidableEq, Repr

structure LitFact where
  unitId : String
  litAt : Instant
  source : LitSource
  acknowledged : Bool := false
  deriving DecidableEq

/-- Every lighting the student owns, and the ones first seen now. -/
def resolveLitFacts (litUnitIds : List String) (stored : OrderedDict String LitFact)
    (ledgerOpen : Bool) (now : Instant) : OrderedDict String LitFact × List LitFact :=
  let source := if ledgerOpen then LitSource.observed else LitSource.backfilled
  litUnitIds.foldl (fun (facts, fresh) unitId =>
    if unitId = "" ∨ facts.contains unitId then (facts, fresh)
    else
      let fact := { unitId := unitId, litAt := now, source := source }
      (facts.insert unitId fact, fresh ++ [fact])) (stored, [])

def LitFact.before (a b : LitFact) : Prop := a.litAt < b.litAt ∨ (a.litAt = b.litAt ∧ a.unitId ≤ b.unitId)

instance : DecidableRel LitFact.before := fun a b =>
  inferInstanceAs (Decidable (a.litAt < b.litAt ∨ (a.litAt = b.litAt ∧ a.unitId ≤ b.unitId)))

/-- Lightings the student saw happen and has not confirmed yet. -/
def unacknowledgedLit (facts : OrderedDict String LitFact) (among : List String) : List String :=
  ((facts.values.filter fun fact =>
    (fact.source = .observed ∨ fact.source = .quiz) ∧ fact.acknowledged = false ∧
      fact.unitId ∈ among).insertionSort LitFact.before).map LitFact.unitId

/-! ## Skills -/

structure SkillMastery where
  skillId : String
  unitId : String
  lit : Bool
  extension : Bool := false
  ready : Bool := true
  missingUnitIds : List String := []
  deriving DecidableEq

def judgeSkills (unitId : String) (skillIds : List String)
    (skillsByExercise : OrderedDict String (List String)) (exercisesAnsweredRight : Finset String) :
    List SkillMastery :=
  let litNow := (skillsByExercise.entries.filter fun e => e.1 ∈ exercisesAnsweredRight).flatMap Prod.snd
  skillIds.map fun skillId => { skillId := skillId, unitId := unitId, lit := skillId ∈ litNow }

/-- A lesson comes before another one. -/
def Lesson.before (a b : Lesson) : Prop := a.order < b.order ∨ (a.order = b.order ∧ a.id ≤ b.id)

instance : DecidableRel Lesson.before := fun a b =>
  inferInstanceAs (Decidable (a.order < b.order ∨ (a.order = b.order ∧ a.id ≤ b.id)))

/-- Per skill: whether it is an extension, whether the student is ready for its
next practice, and the units that hold what is missing. -/
def skillReadiness (lessonsBySkill : OrderedDict String (List Lesson))
    (exercisesByLesson : OrderedDict String (List Exercise)) (exercisesAnsweredRight : Finset String) :
    OrderedDict String (Bool × Bool × List String) :=
  let lessons := OrderedDict.ofPairs
    ((lessonsBySkill.values.flatMap id).map fun lesson => (lesson.id, lesson))
  -- Every core exercise with the point it practises, and the unit of its lesson.
  let practised := exercisesByLesson.entries.flatMap fun e =>
    match lessons.get? e.1 with
    | none => []
    | some lesson =>
      if lesson.extension then []
      else (e.2.filter fun exercise => exercise.knowledgePoint ≠ "").map fun exercise =>
        (exercise.knowledgePoint, exercise.id, lesson.unitId)
  let mastered := fun point => practised.all fun p => p.1 = point → p.2.1 ∈ exercisesAnsweredRight
  let pointUnit := fun point => (practised.find? fun p => p.1 = point).map fun p => p.2.2
  lessonsBySkill.mapValues fun _ skillLessons =>
    let ordered := skillLessons.insertionSort Lesson.before
    let upcoming := ordered.find? fun lesson => (exercisesByLesson.getD lesson.id []).any fun exercise =>
      exercise.id ∉ exercisesAnsweredRight
    let needed := (upcoming.map Lesson.requiresPoints).getD []
    let missing := needed.filter fun point => (pointUnit point).isSome ∧ mastered point = false
    (ordered ≠ [] ∧ ordered.all Lesson.extension, missing = [],
      fromKeys (missing.filterMap pointUnit))

/-- What every lesson of the catalog says of the skills, in its order. -/
structure SkillIndex where
  skillsByExercise : OrderedDict String (OrderedDict String (List String))
  lessonsBySkill : OrderedDict String (List Lesson)
  exercisesByLesson : OrderedDict String (List Exercise)

def SkillIndex.empty : SkillIndex := ⟨.empty, .empty, .empty⟩

def SkillIndex.add (index : SkillIndex) (lesson : Lesson) (entry : Exercise) : SkillIndex :=
  let skills := entry.skills.filter fun skill => skill ≠ ""
  { skillsByExercise := index.skillsByExercise.insert lesson.unitId
      ((index.skillsByExercise.getD lesson.unitId .empty).insert entry.id skills)
    exercisesByLesson := index.exercisesByLesson.insert lesson.id
      (index.exercisesByLesson.getD lesson.id [] ++ [entry])
    lessonsBySkill := skills.foldl (fun found skill =>
      let mine := found.getD skill []
      found.insert skill (if lesson ∈ mine then mine else mine ++ [lesson])) index.lessonsBySkill }

def skillIndex (content : Content) : SkillIndex :=
  content.lessons.foldl (fun index lesson =>
    (content.exercises lesson.id).foldl (fun index entry => index.add lesson entry) index) .empty

def skillStates (content : Content) (evidence : Evidence) : OrderedDict String SkillMastery :=
  let index := skillIndex content
  let readiness := skillReadiness index.lessonsBySkill index.exercisesByLesson evidence.answeredRight
  OrderedDict.ofPairs (content.units.flatMap fun unit =>
    let exercises := index.skillsByExercise.getD unit.id .empty
    -- A skill point appears once an active exercise trains it.
    let trained := exercises.values.flatMap id
    (judgeSkills unit.id ((content.skillIdsByUnit unit.id).filter fun skill => skill ∈ trained)
      exercises evidence.answeredRight).map fun judged =>
        let found := readiness.getD judged.skillId (false, true, [])
        (judged.skillId, { judged with
          extension := found.1
          ready := found.2.1
          missingUnitIds := found.2.2 }))

end Stoa.Mastery
