import Stoa.Model.AskPrompt
import Stoa.Model.AiReply
import Stoa.Model.Mastery
import Mathlib.Data.List.Sort

/-! # The answer to a question

What the model replies is turned into an answer: the stars that it names are looked up in the
list that it was shown, and the answer is kept as JSON until it is stored for good. -/

namespace Stoa.Ask

open PyText JsonText
open Stoa.AskPrompt (Candidate topicRefs)
open Stoa.Mastery (LearningState)

/-! ## The stars -/

structure Topic where
  id : Str
  title : Str
  order : ℤ

structure CatalogUnit where
  id : Str
  title : Str
  subjectId : Str
  topicId : Str
  order : ℤ

/-- What is used of a judged unit. -/
structure Judged where
  lessonCount : ℕ
  state : LearningState

/-- The value that a state is written as. -/
def stateValue : LearningState → Str
  | .lit => str "lit"
  | .inProgress => str "in_progress"
  | .ready => str "ready"

/-- The last topic of an id. -/
def topicOf (topics : List Topic) (id : Str) : Option Topic := topics.reverse.find? fun topic => topic.id = id

def topicOrder (topics : List Topic) (id : Str) : ℤ := ((topicOf topics id).map Topic.order).getD 0

def topicName (topics : List Topic) (id : Str) : Str :=
  ((topicOf topics id).map fun topic => if topic.title = [] then topic.id else topic.title).getD id

/-- The order of the course. -/
def inCourse (topics : List Topic) (a b : CatalogUnit) : Prop :=
  a.subjectId < b.subjectId ∨ (a.subjectId = b.subjectId ∧
    (topicOrder topics a.topicId < topicOrder topics b.topicId ∨
      (topicOrder topics a.topicId = topicOrder topics b.topicId ∧
        (a.topicId < b.topicId ∨ (a.topicId = b.topicId ∧
          (a.order < b.order ∨ (a.order = b.order ∧ a.id ≤ b.id)))))))

instance (topics : List Topic) : DecidableRel (inCourse topics) := fun a b =>
  inferInstanceAs (Decidable (a.subjectId < b.subjectId ∨ (a.subjectId = b.subjectId ∧
    (topicOrder topics a.topicId < topicOrder topics b.topicId ∨
      (topicOrder topics a.topicId = topicOrder topics b.topicId ∧
        (a.topicId < b.topicId ∨ (a.topicId = b.topicId ∧
          (a.order < b.order ∨ (a.order = b.order ∧ a.id ≤ b.id)))))))))

/-- The units that the map draws, each with what it is judged. -/
def drawn (units : List CatalogUnit) (states : Str → Option Judged) : List (CatalogUnit × Judged) :=
  units.filterMap fun unit =>
    match states unit.id with
    | some judged => if judged.lessonCount > 0 ∧ unit.id ≠ [] then some (unit, judged) else none
    | none => none

/-- `from_catalog` -/
def fromCatalog (topics : List Topic) (units : List CatalogUnit) (states : Str → Option Judged) : List Candidate :=
  (((drawn units states).insertionSort fun a b => inCourse topics a.1 b.1).zipIdx 1).map fun ((unit, judged), index) =>
    { ref := str "k" ++ decimal index
      unitId := unit.id
      name := if unit.title = [] then unit.id else unit.title
      subjectId := unit.subjectId
      topicId := unit.topicId
      topicName := topicName topics unit.topicId
      state := stateValue judged.state }

/-- `find` -/
def find (candidates : Option (List Candidate)) (ref : Option Value) : Option Candidate :=
  match ref with
  | some (.str ref) => (candidates.getD []).find? fun candidate => candidate.ref = PyText.strip ref
  | _ => none

/-- `find_topic` -/
def findTopic (candidates : Option (List Candidate)) (ref : Option Value) : List Candidate :=
  match ref with
  | some (.str ref) =>
    match (topicRefs (candidates.getD [])).find? fun entry => entry.2 = PyText.strip ref with
    | some (topic, _) => (candidates.getD []).filter fun candidate => candidate.topicId = topic
    | none => []
  | _ => []

/-- `_recommended_unit` -/
def recommendedUnit (stars : List Candidate) : Str :=
  (((stars.find? fun star => star.state = str "in_progress").or
    (stars.find? fun star => star.state = str "ready")).map Candidate.unitId).getD []

/-! ## Checked values -/

/-- What the validation takes: which texts, and which values as a flag. -/
structure Pydantic where
  text : Str → Bool
  flag : Value → Option Bool
  flag_bool : ∀ b, flag (.bool b) = some b

variable {validation : Pydantic}

structure KnowledgePoint (validation : Pydantic) where
  name : Str
  unitId : Option Str
  accepted : validation.text name = true ∧ ∀ id ∈ unitId, validation.text id = true

inductive Kind where
  | answer
  | followUp
  deriving DecidableEq

structure StructuredAnswer (validation : Pydantic) where
  kind : Kind
  steps : List Str
  answer : Str
  hints : List Str
  similarExercises : List Str
  knowledgePoints : List (KnowledgePoint validation)
  suggestTeacher : Bool
  accepted : (∀ text ∈ steps ++ hints ++ similarExercises, validation.text text = true) ∧ validation.text answer = true

structure AskAnswer (validation : Pydantic) where
  content : Str
  structured : StructuredAnswer validation
  targetUnitId : Option Str
  knowledgeGaps : List Str
  askedPoints : List (KnowledgePoint validation)

def KnowledgePoint.make? (name : Str) (unitId : Option Str) : Option (KnowledgePoint validation) :=
  if h : validation.text name = true ∧ ∀ id ∈ unitId, validation.text id = true then some ⟨name, unitId, h⟩ else none

def StructuredAnswer.make? (kind : Kind) (steps : List Str) (answer : Str) (hints similarExercises : List Str)
    (knowledgePoints : List (KnowledgePoint validation)) (suggestTeacher : Bool) : Option (StructuredAnswer validation) :=
  if h : (∀ text ∈ steps ++ hints ++ similarExercises, validation.text text = true) ∧ validation.text answer = true then
    some ⟨kind, steps, answer, hints, similarExercises, knowledgePoints, suggestTeacher, h⟩
  else none

/-! ## The answer as JSON -/

def optional : Option Str → Value
  | none => .null
  | some text => .str text

def KnowledgePoint.dump (point : KnowledgePoint validation) : Value :=
  .obj [(str "name", .str point.name), (str "unitId", optional point.unitId)]

def Kind.value : Kind → Str
  | .answer => str "answer"
  | .followUp => str "followUp"

def StructuredAnswer.dump (structured : StructuredAnswer validation) : Value := .obj [
  (str "kind", .str structured.kind.value),
  (str "steps", .arr (structured.steps.map .str)),
  (str "answer", .str structured.answer),
  (str "hints", .arr (structured.hints.map .str)),
  (str "similarExercises", .arr (structured.similarExercises.map .str)),
  (str "knowledgePoints", .arr (structured.knowledgePoints.map KnowledgePoint.dump)),
  (str "suggestTeacher", .bool structured.suggestTeacher)]

/-- `to_json` -/
def AskAnswer.toJson (answer : AskAnswer validation) : Value := .obj [
  (str "content", .str answer.content),
  (str "structured", answer.structured.dump),
  (str "targetUnitId", optional answer.targetUnitId),
  (str "knowledgeGaps", .arr (answer.knowledgeGaps.map .str)),
  (str "askedPoints", .arr (answer.askedPoints.map KnowledgePoint.dump))]

/-- `isinstance(value, str)` -/
def readText : Value → Option Str
  | .str text => some text
  | _ => none

/-- A list whose items are all read. -/
def readList {α : Type} (read : Value → Option α) : Value → Option (List α)
  | .arr items => items.mapM read
  | _ => none

/-- A member that is none where it is missing. -/
def readOptional : Option Value → Option (Option Str)
  | none => some none
  | some .null => some none
  | some (.str text) => some (some text)
  | some _ => none

/-- A member with an empty list for its default. -/
def readDefault {α : Type} (read : Value → Option α) : Option Value → Option (List α)
  | none => some []
  | some value => readList read value

/-- `KnowledgePoint.model_validate` -/
def KnowledgePoint.validate (value : Value) : Option (KnowledgePoint validation) := do
  let name ← (value.get? (str "name")).bind readText
  let unitId ← readOptional (value.get? (str "unitId"))
  KnowledgePoint.make? name unitId

def Kind.read : Value → Option Kind
  | .str text => if text = str "answer" then some .answer else if text = str "followUp" then some .followUp else none
  | _ => none

/-- `StructuredAnswer.model_validate` -/
def StructuredAnswer.validate (value : Value) : Option (StructuredAnswer validation) := do
  let kind ← (value.get? (str "kind")).bind Kind.read
  let steps ← readDefault readText (value.get? (str "steps"))
  let answer ← ((value.get? (str "answer")).map readText).getD (some [])
  let hints ← readDefault readText (value.get? (str "hints"))
  let similarExercises ← readDefault readText (value.get? (str "similarExercises"))
  let knowledgePoints ← readDefault KnowledgePoint.validate (value.get? (str "knowledgePoints"))
  let suggestTeacher ← ((value.get? (str "suggestTeacher")).map validation.flag).getD (some false)
  StructuredAnswer.make? kind steps answer hints similarExercises knowledgePoints suggestTeacher

/-- `from_json` -/
def AskAnswer.fromJson (value : Value) : Option (AskAnswer validation) := do
  let content ← (value.get? (str "content")).bind readText
  let targetUnitId ← readOptional (value.get? (str "targetUnitId"))
  let knowledgeGaps ← (value.get? (str "knowledgeGaps")).bind (readList readText)
  let points ← (value.get? (str "askedPoints")).bind (readList some)
  if content = [] ∨ targetUnitId = some [] then none
  else do
    let structured ← (value.get? (str "structured")).bind StructuredAnswer.validate
    let askedPoints ← points.mapM KnowledgePoint.validate
    return { content, structured, targetUnitId, knowledgeGaps, askedPoints }

/-! ## From the reply to the answer -/

inductive Failure where
  | malformedResponse
  | providerError

/-- `_HINT_LABELS` -/
def HINT_LABELS : List (Str × Str) :=
  [(str "de", str "Hinweis"), (str "en", str "Hint"), (str "fr", str "Indice"), (str "it", str "Indizio")]

/-- `_answer_language` -/
def answerLanguage (reply : Value) (default : Str) : Str :=
  match reply.get? (str "language") with
  | some (.str language) =>
    let reported := AiReply.lower (PyText.strip language)
    if reported ∈ HINT_LABELS.map Prod.fst then reported else default
  | _ => default

def hintLabel (language : Str) : Str :=
  ((HINT_LABELS.find? fun label => label.1 = language).map Prod.snd).getD (str "Hinweis")

/-- `_joined_text` -/
def joinedText (reply : Value) (defaultLocale : Str) : Except Failure Str :=
  match readDefault readText (reply.get? (str "steps")), ((reply.get? (str "answer")).map readText).getD (some []),
    readDefault readText (reply.get? (str "hints")) with
  | some steps, some answer, some hints =>
    let numbered := join (str "\n") ((steps.zipIdx 1).map fun (step, index) => decimal index ++ str ". " ++ step)
    let hint := match hints with
      | [] => []
      | hint :: _ => str "\n\n**" ++ hintLabel (answerLanguage reply defaultLocale) ++ str ":** " ++ hint
    let text := PyText.strip (numbered ++ str "\n\n" ++ answer ++ hint)
    if text = [] then .error .malformedResponse else .ok text
  | _, _, _ => .error .malformedResponse

/-- `_texts` -/
def texts : Option Value → List Str
  | some (.arr items) => items.filterMap readText
  | _ => []

/-- What a point that the model named is called, and its star. -/
def namedPoint (starMap : Option (List Candidate)) : Value → Option (Str × Option Str)
  | .str name => if PyText.strip name = [] then none else some (name, none)
  | .obj members =>
    match find starMap ((Value.obj members).get? (str "id")) with
    | some star => some (star.name, some star.unitId)
    | none =>
      match (Value.obj members).get? (str "name") with
      | some (.str name) => if PyText.strip name = [] then none else some (name, none)
      | _ => none
  | _ => none

/-- The points of a reply, unless one of them is not accepted. -/
def pointsOf (starMap : Option (List Candidate)) (named : Option Value) : Option (List (KnowledgePoint validation)) :=
  match named with
  | some (.arr items) => (items.filterMap (namedPoint starMap)).mapM fun (name, unitId) => KnowledgePoint.make? name unitId
  | _ => some []

/-- `str(reply.get("answer") or "")`, for a reply whose answer is a text. -/
def answerText (reply : Value) : Str := ((reply.get? (str "answer")).bind readText).getD []

/-- `_structured_answer` -/
def structuredAnswer (reply : Value) (starMap : Option (List Candidate)) : Option (StructuredAnswer validation) := do
  let steps := texts (reply.get? (str "steps"))
  let hints := texts (reply.get? (str "hints"))
  let similar := texts (reply.get? (str "similar_exercises"))
  let points ← pointsOf starMap (reply.get? (str "knowledge_points"))
  let kind := if steps = [] ∧ hints = [] ∧ similar = [] ∧ points.isEmpty then Kind.followUp else Kind.answer
  let suggestTeacher := match reply.get? (str "suggest_teacher") with
    | some (.bool true) => true
    | _ => false
  StructuredAnswer.make? kind steps (answerText reply) hints similar points suggestTeacher

/-- `_target_unit_id` -/
def targetUnitId (reply : Value) (starMap : Option (List Candidate)) : Option Str :=
  let named := reply.get? (str "target_unit_id")
  match find starMap named with
  | some star => some star.unitId
  | none =>
    let recommended := recommendedUnit (findTopic starMap named)
    if recommended = [] then none else some recommended

/-- `_answer_from` -/
def answerFrom (reply : Value) (followUp : Bool) (locale : Str) (starMap : Option (List Candidate)) :
    Except Failure (AskAnswer validation) :=
  match reply with
  | .obj _ =>
    match structuredAnswer reply starMap, joinedText reply locale with
    | some structured, .ok content => .ok {
        content
        structured
        targetUnitId := targetUnitId reply starMap
        knowledgeGaps :=
          if starMap.isSome then (structured.knowledgePoints.filter fun point => point.unitId.isNone).map KnowledgePoint.name
          else []
        askedPoints := if followUp then [] else structured.knowledgePoints }
    | none, _ => .error .providerError
    | _, .error e => .error e
  | _ => .error .malformedResponse

/-- `answer`, where the model replies to what it is shown. -/
def answer (followUp : Bool) (locale : Str) (readStarMap : Option (List Candidate))
    (reply : Option (List Candidate) → Except Failure Value) : Except Failure (AskAnswer validation) := do
  let starMap := if followUp then none else readStarMap
  answerFrom (← reply starMap) followUp locale starMap

end Stoa.Ask
