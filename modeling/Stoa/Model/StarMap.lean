import Stoa.Model.Mastery

/-! # The star map

Every unit with an active lesson is a star. The full map draws all of them, the
neighbourhood a few around one. -/

namespace Stoa.StarMap

open Mastery

/-! ## What the map is drawn from -/

structure Subject where
  id : String
  name : String
  order : ℤ
  deriving DecidableEq

structure Topic where
  id : String
  title : String
  subjectId : String
  order : ℤ
  deriving DecidableEq

structure Catalog extends Content where
  subjects : List Subject
  topics : List Topic
  rolloutSubjects : List String
  /-- The exercises that a lesson row itself carries. -/
  indexed : String → List Exercise
  locale : String

/-- One finished lesson. -/
structure Completion where
  lessonId : String
  unitId : String
  completedAt : Instant
  deriving DecidableEq

structure StudentEvidence extends Evidence where
  /-- Oldest first. -/
  completions : List Completion
  completed : completedLessonIds = (completions.map Completion.lessonId).toFinset
  litFacts : OrderedDict String LitFact
  litLedgerOpen : Bool
  starQuizRetryAt : OrderedDict String Instant
  /-- None, where the cards cannot be read. -/
  reviewDueByUnit : OrderedDict String ℕ
  now : Instant

/-- What the map takes from elsewhere: lower case, rounding to a number of digits,
the arrangement of a map not laid out yet, the titles of the skills, and what the
knowledge base draws as prerequisites of its own units. -/
structure Atlas where
  lower : String → String
  round : ℚ → ℕ → ℚ
  starPosition : List Topic → CatalogUnit → ℚ × ℚ
  skillTitle : String → String → String
  drawnPrerequisites : String → List String

def normalSubjectId (atlas : Atlas) (subjectId : String) : String :=
  match atlas.lower (String.ofList (strip subjectId.toList)) with
  | "mathematics" => "math"
  | "mathematik" => "math"
  | "deutsch" => "german"
  | "englisch" => "english"
  | value => value

inductive Raised where
  | unknownSubject (subjectId : String)
  deriving DecidableEq, Repr

def knownSubjectIds (atlas : Atlas) (catalog : Catalog) : List String :=
  (catalog.subjects.map (normalSubjectId atlas ·.id) ++
    catalog.rolloutSubjects.map (normalSubjectId atlas)).filter fun id => id ≠ ""

def requireKnownSubject (atlas : Atlas) (subjectId : String) (catalog : Catalog) :
    Except Raised Unit :=
  if subjectId = "" then .ok ()
  else if normalSubjectId atlas subjectId ∈ knownSubjectIds atlas catalog then .ok ()
  else .error (.unknownSubject subjectId)

/-- The subject in focus: the one asked for, else the first of the catalog. -/
def focusSubject (atlas : Atlas) (requested : String) (catalog : Catalog) : String :=
  if requested ≠ "" then normalSubjectId atlas requested
  else (catalog.subjects.head?.map Subject.id).getD ""

/-! ## Stars -/

structure MissingPrerequisite where
  unitId : String
  name : String
  deriving DecidableEq

structure SkillStar where
  skillId : String
  name : String
  lit : Bool
  extension : Bool
  missingPrerequisites : Option (List MissingPrerequisite)
  deriving DecidableEq

structure Chapter where
  lessonCount : ℕ
  lessonsDone : ℕ
  nextLesson : Option NextLesson
  deriving DecidableEq

/-- One star, before a recommendation is written on it. -/
structure Star where
  unitId : String
  name : String
  nebulaId : String
  order : ℤ
  state : LearningState
  unlitPrerequisiteIds : List String
  starQuizRetryAt : Option Instant
  litAt : Option Instant
  litAtSource : Option LitSource
  progress : ℚ
  unmetExercises : ℕ
  reviewDue : ℕ
  position : ℚ × ℚ
  skills : List SkillStar
  chapter : Chapter
  deriving DecidableEq

def SkillMastery.byId (a b : SkillMastery) : Prop := a.skillId ≤ b.skillId

instance : DecidableRel SkillMastery.byId := fun a b => inferInstanceAs (Decidable (a.skillId ≤ b.skillId))

def skillStar (atlas : Atlas) (locale : String) (names : OrderedDict String String)
    (state : SkillMastery) : SkillStar where
  skillId := state.skillId
  name := atlas.skillTitle state.skillId locale
  lit := state.lit
  extension := state.extension
  missingPrerequisites :=
    if state.ready then none
    else some (state.missingUnitIds.map fun missing => ⟨missing, names.getD missing missing⟩)

/-- The skill points around one star, in a fixed order. -/
def skillsOf (atlas : Atlas) (unitId : String) (states : OrderedDict String SkillMastery)
    (locale : String) (names : OrderedDict String String) : List SkillStar :=
  ((states.values.filter fun state => state.unitId = unitId).insertionSort SkillMastery.byId).map
    (skillStar atlas locale names)

def position (atlas : Atlas) (topics : List Topic) (unit : CatalogUnit) : ℚ × ℚ :=
  let place := unit.laidOut.getD (atlas.starPosition topics unit)
  (atlas.round place.1 5, atlas.round place.2 5)

/-- The facts a map is drawn with. -/
structure Facts where
  topics : List Topic
  unitStates : OrderedDict String UnitMastery
  reviewDueByUnit : OrderedDict String ℕ
  litFacts : OrderedDict String LitFact
  skillStates : OrderedDict String SkillMastery
  locale : String
  starQuizRetryAt : OrderedDict String Instant

def drawStar (atlas : Atlas) (facts : Facts) (names : OrderedDict String String)
    (unit : CatalogUnit) (judged : UnitMastery) : Star where
  unitId := unit.id
  name := unit.title
  nebulaId := unit.topicId
  order := unit.order
  state := judged.state
  unlitPrerequisiteIds := judged.unlitPrerequisiteIds
  starQuizRetryAt := facts.starQuizRetryAt.get? unit.id
  litAt := (facts.litFacts.get? unit.id).map LitFact.litAt
  litAtSource := (facts.litFacts.get? unit.id).map LitFact.source
  progress := atlas.round judged.progress 4
  unmetExercises := judged.unmetExercises
  reviewDue := facts.reviewDueByUnit.getD unit.id 0
  position := position atlas facts.topics unit
  skills := skillsOf atlas unit.id facts.skillStates facts.locale names
  chapter := ⟨judged.lessonCount, judged.lessonsDone, judged.nextLesson⟩

def Topic.before (a b : Topic) : Prop :=
  a.subjectId < b.subjectId ∨ (a.subjectId = b.subjectId ∧
    (a.order < b.order ∨ (a.order = b.order ∧ a.id ≤ b.id)))

instance : DecidableRel Topic.before := fun a b =>
  inferInstanceAs (Decidable (a.subjectId < b.subjectId ∨ (a.subjectId = b.subjectId ∧
    (a.order < b.order ∨ (a.order = b.order ∧ a.id ≤ b.id)))))

/-- The place of a topic in the band. -/
def chapterOrder (topics : List Topic) (topicId : String) : ℕ :=
  let ordered := (topics.insertionSort Topic.before).map Topic.id
  ((OrderedDict.ofPairs ordered.zipIdx).get? topicId).getD (OrderedDict.ofPairs ordered.zipIdx).keys.length

/-- By chapter, then by the order of the row, then by id. -/
def inCourse (topics : List Topic) (a b : CatalogUnit) : Prop :=
  chapterOrder topics a.topicId < chapterOrder topics b.topicId ∨
    (chapterOrder topics a.topicId = chapterOrder topics b.topicId ∧
      (a.order < b.order ∨ (a.order = b.order ∧ a.id ≤ b.id)))

instance (topics : List Topic) : DecidableRel (inCourse topics) := fun a b =>
  inferInstanceAs (Decidable (chapterOrder topics a.topicId < chapterOrder topics b.topicId ∨
    (chapterOrder topics a.topicId = chapterOrder topics b.topicId ∧
      (a.order < b.order ∨ (a.order = b.order ∧ a.id ≤ b.id)))))

def unitNames (units : List CatalogUnit) : OrderedDict String String :=
  OrderedDict.ofPairs (units.map fun unit => (unit.id, unit.title))

/-- The stars of `build_map`: every unit with an active lesson. -/
def buildMap (atlas : Atlas) (facts : Facts) (units : List CatalogUnit) : List Star :=
  (units.insertionSort (inCourse facts.topics)).filterMap fun unit =>
    match facts.unitStates.get? unit.id with
    | none => none
    | some judged =>
      if judged.lessonCount = 0 then none
      else some (drawStar atlas facts (unitNames units) unit judged)

/-- The lightings as the map sees them, with those first seen now. -/
def litFacts (evidence : StudentEvidence) (states : OrderedDict String UnitMastery) :
    OrderedDict String LitFact × List LitFact :=
  resolveLitFacts ((litUnitIds states.values).insertionSort (· ≤ ·)) evidence.litFacts
    evidence.litLedgerOpen evidence.now

def fullFacts (catalog : Catalog) (evidence : StudentEvidence) : Facts :=
  let states := unitStates catalog.toContent evidence.toEvidence
  { topics := catalog.topics
    unitStates := states
    reviewDueByUnit := evidence.reviewDueByUnit
    litFacts := (litFacts evidence states).1
    skillStates := skillStates catalog.toContent evidence.toEvidence
    locale := catalog.locale
    starQuizRetryAt := evidence.starQuizRetryAt }

structure FullMap where
  subjectId : String
  stars : List Star

/-- `knowledge_map` in the view `full`. -/
def knowledgeMap (atlas : Atlas) (catalog : Catalog) (evidence : StudentEvidence)
    (subjectId : String) : Except Raised FullMap := do
  let requested := String.ofList (strip subjectId.toList)
  requireKnownSubject atlas requested catalog
  return ⟨focusSubject atlas requested catalog,
    buildMap atlas (fullFacts catalog evidence) catalog.units⟩

/-! ## The neighbourhood -/

inductive Relation where
  | focus
  | prerequisite
  | next
  | neighbour
  deriving DecidableEq, Repr

def NEIGHBOURS_EACH_SIDE : ℕ := 2

def MAX_NEIGHBOURHOOD : ℕ := 15

/-- What a star needs: what its own row states, then what the knowledge base draws. -/
def prerequisitesOf (atlas : Atlas) (unitId : String) (units : OrderedDict String CatalogUnit) :
    List String :=
  let stated := ((units.get? unitId).bind CatalogUnit.prerequisiteUnitIds).getD []
  (fromKeys (stated.filter (· ≠ "") ++ atlas.drawnPrerequisites unitId)).filter fun item =>
    units.contains item ∧ item ≠ unitId

/-- What is begun comes before what is not. -/
def recommendedUnit (stars : List (String × LearningState)) : Option String :=
  ((stars.find? fun star => star.2 = .inProgress).or
    (stars.find? fun star => star.2 = .ready)).map Prod.fst

def CatalogUnit.byTopic (a b : CatalogUnit) : Prop :=
  a.topicId < b.topicId ∨ (a.topicId = b.topicId ∧ a.order ≤ b.order)

instance : DecidableRel CatalogUnit.byTopic := fun a b =>
  inferInstanceAs (Decidable (a.topicId < b.topicId ∨ (a.topicId = b.topicId ∧ a.order ≤ b.order)))

/-- The units in the order of their topics, each with its state. -/
def focusStars (units : OrderedDict String CatalogUnit) (states : OrderedDict String UnitMastery) :
    List (String × LearningState) :=
  (units.values.insertionSort CatalogUnit.byTopic).filterMap fun unit =>
    (states.get? unit.id).map fun judged => (unit.id, judged.state)

/-- The recommended unit, else the first one. -/
def recommendedFocus (stars : List (String × LearningState)) : String :=
  let recommended := (recommendedUnit stars).getD ""
  if recommended ≠ "" then recommended else (stars.head?.map Prod.fst).getD ""

/-- The unit in focus: the one asked for, else the one practice was last finished
in, else the recommended one. It is blank when there is none. -/
def focusOf (evidence : StudentEvidence) (around : String) (units : OrderedDict String CatalogUnit)
    (states : OrderedDict String UnitMastery) : String :=
  if around ≠ "" ∧ units.contains around then around
  else
    match (evidence.completions.filter fun item => units.contains item.unitId).getLast? with
    | some item => item.unitId
    | none => recommendedFocus (focusStars units states)

def add (units : OrderedDict String CatalogUnit) (role : Relation)
    (picked : OrderedDict String Relation) (unitId : String) : OrderedDict String Relation :=
  if units.contains unitId ∧ picked.contains unitId = false ∧
      picked.entries.length < MAX_NEIGHBOURHOOD then picked.insert unitId role
  else picked

def CatalogUnit.inNebula (a b : CatalogUnit) : Prop :=
  a.order < b.order ∨ (a.order = b.order ∧ a.id ≤ b.id)

instance : DecidableRel CatalogUnit.inNebula := fun a b =>
  inferInstanceAs (Decidable (a.order < b.order ∨ (a.order = b.order ∧ a.id ≤ b.id)))

/-- The neighbours of the focus in its nebula, and the focus itself. -/
def nebulaOf (focus : String) (units : OrderedDict String CatalogUnit) : List String :=
  let nebula := ((units.values.filter fun unit =>
    some unit.topicId = (units.get? focus).map CatalogUnit.topicId).insertionSort
      CatalogUnit.inNebula).map CatalogUnit.id
  let place := nebula.idxOf focus
  (nebula.take (place + NEIGHBOURS_EACH_SIDE + 1)).drop (place - NEIGHBOURS_EACH_SIDE)

/-- The stars that come with the one in focus, each with why, in this order. -/
def around (atlas : Atlas) (focus : String) (units : OrderedDict String CatalogUnit) :
    OrderedDict String Relation :=
  let picked := OrderedDict.empty.insert focus .focus
  let picked := (prerequisitesOf atlas focus units).foldl (add units .prerequisite) picked
  let next := (units.keys.insertionSort (· ≤ ·)).filter fun unitId =>
    focus ∈ prerequisitesOf atlas unitId units
  let picked := next.foldl (add units .next) picked
  (nebulaOf focus units).foldl (add units .neighbour) picked

inductive PracticeStatus where
  | completed
  | available
  deriving DecidableEq, Repr

structure PracticeSet where
  lessonId : String
  title : String
  order : ℤ
  exerciseCount : ℤ
  skillId : Option String
  status : PracticeStatus
  extension : Bool
  deriving DecidableEq

/-- The practice of a star, in the order it is worked through. -/
def practiceSets (unitId : String) (catalog : Catalog) (done : Finset String) : List PracticeSet :=
  ((catalog.lessons.filter fun lesson => lesson.unitId = unitId).insertionSort Lesson.before).map
    fun lesson => {
      lessonId := lesson.id
      title := lesson.title
      order := lesson.order
      exerciseCount := lesson.exerciseCount
      skillId := ((catalog.indexed lesson.id).flatMap Exercise.skills).head?
      status := if lesson.id ∈ done then .completed else .available
      extension := lesson.extension }

structure NeighbourStar where
  star : Star
  relation : Relation
  prerequisiteUnitIds : List String
  practiceSets : List PracticeSet
  deriving DecidableEq

structure Neighbourhood where
  subjectId : String
  focus : Option String
  stars : List NeighbourStar

/-- The units of a subject that are stars. -/
def unitsOf (atlas : Atlas) (catalog : Catalog) (states : OrderedDict String UnitMastery)
    (subject : String) : OrderedDict String CatalogUnit :=
  OrderedDict.ofPairs ((catalog.units.filter fun unit =>
    normalSubjectId atlas unit.subjectId = subject ∧
      ((states.get? unit.id).any fun judged => 0 < judged.lessonCount)).map fun unit => (unit.id, unit))

/-- The facts of `neighbourhood`: no lighting is read. -/
def fewFacts (catalog : Catalog) (evidence : StudentEvidence) : Facts :=
  { fullFacts catalog evidence with litFacts := .empty }

/-- The picked stars, in the order in which they were picked. -/
def neighbourStars (atlas : Atlas) (catalog : Catalog) (evidence : StudentEvidence)
    (units : OrderedDict String CatalogUnit) (picked : OrderedDict String Relation) :
    List NeighbourStar :=
  let sky := buildMap atlas (fewFacts catalog evidence) (picked.keys.filterMap units.get?)
  let stars := sky.filterMap fun star => (picked.get? star.unitId).map fun relation => {
    star := star
    relation := relation
    prerequisiteUnitIds := prerequisitesOf atlas star.unitId units
    practiceSets := practiceSets star.unitId catalog evidence.completedLessonIds }
  stars.insertionSort fun a b =>
    picked.keys.idxOf a.star.unitId ≤ picked.keys.idxOf b.star.unitId

/-- The units of the subject in focus. -/
def focusUnits (atlas : Atlas) (catalog : Catalog) (evidence : StudentEvidence)
    (subject : String) : OrderedDict String CatalogUnit :=
  unitsOf atlas catalog (fewFacts catalog evidence).unitStates subject

/-- The units that are sent around the focus; none without a focus. -/
def pickedUnits (atlas : Atlas) (catalog : Catalog) (evidence : StudentEvidence)
    (subject around_ : String) : OrderedDict String Relation :=
  let units := focusUnits atlas catalog evidence subject
  let focus := focusOf evidence around_ units (fewFacts catalog evidence).unitStates
  if focus = "" then .empty else around atlas focus units

def neighbourhood (atlas : Atlas) (catalog : Catalog) (evidence : StudentEvidence)
    (subjectId around_ : String) : Except Raised Neighbourhood := do
  let requested := String.ofList (strip subjectId.toList)
  requireKnownSubject atlas requested catalog
  let subject := focusSubject atlas requested catalog
  let units := focusUnits atlas catalog evidence subject
  let focus := focusOf evidence around_ units (fewFacts catalog evidence).unitStates
  return {
    subjectId := subject
    focus := if focus = "" then none else some focus
    stars := neighbourStars atlas catalog evidence units
      (pickedUnits atlas catalog evidence subject around_) }

end Stoa.StarMap
