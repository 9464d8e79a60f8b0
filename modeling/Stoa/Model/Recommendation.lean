import Stoa.Model.StarMap
import Mathlib.Data.List.MinMax
import Mathlib.Data.Prod.Lex
import Mathlib.Data.String.Basic
import Mathlib.Order.WithBot
import Mathlib.Order.ConditionallyCompleteLattice.Basic
import Mathlib.Data.Int.ConditionallyCompleteOrder

/-! # What the map recommends

`_recommendation` and the part of `build_map` that writes it on a star. -/

namespace Stoa.StarMap

open Mastery

inductive Reason where
  | inProgress
  | afterLit
  | start
  deriving DecidableEq, Repr

/-- What is written on a star. Its source is always `system`. -/
structure Recommendation where
  reason : Reason
  relatedUnitId : Option String
  deriving DecidableEq

/-- What a recommendation is decided from. -/
structure Course where
  /-- The whole sky in course order. -/
  stars : List Star
  subjectOfNebula : OrderedDict String String
  successors : OrderedDict String (List String)
  facts : OrderedDict String LitFact
  /-- When the student last did something in a unit, as the row has it. -/
  evidence : OrderedDict String String

namespace Course

variable (course : Course)

def subjectOf (star : Star) : String := course.subjectOfNebula.getD star.nebulaId ""

def position (star : Star) : ℕ :=
  (OrderedDict.ofPairs (course.stars.map Star.unitId).zipIdx).getD star.unitId 0

def byId : OrderedDict String Star := OrderedDict.ofPairs (course.stars.map fun star => (star.unitId, star))

def mine (subjectId : String) : List Star := course.stars.filter fun star => course.subjectOf star = subjectId

/-- The order in which a star in progress is preferred. -/
def progressKey (star : Star) : String ×ₗ ℤ :=
  toLex (course.evidence.getD star.unitId "", -(course.position star : ℤ))

def frontier (subjectId : String) : List Star :=
  (course.mine subjectId).filter fun star => star.state ≠ .lit ∧ star.unlitPrerequisiteIds = []

/-- The star that a lighting leads to in a subject. -/
def after (subjectId : String) (lit : Star) : Option Star :=
  let frontier := course.frontier subjectId
  let following := ((course.successors.getD lit.unitId []).filter fun unitId =>
    unitId ∈ frontier.map Star.unitId).filterMap course.byId.get?
  if following ≠ [] then following.argmin course.position
  else if course.subjectOf lit ≠ subjectId then none
  else
    -- The course order, from the star after this one, round to the start.
    let later := frontier.filter fun star => course.position lit < course.position star
    if later ≠ [] then later.head? else frontier.head?

/-- The time of a lighting; one that is not recorded comes first. -/
def litAt (star : Star) : WithBot Instant := ((course.facts.get? star.unitId).map LitFact.litAt : Option Instant)

/-- The order in which a lighting is preferred. -/
def lightingKey (subjectId : String) (star : Star) : WithBot Instant ×ₗ Bool ×ₗ ℕ :=
  toLex (course.litAt star, toLex (decide (course.subjectOf star = subjectId), course.position star))

/-- The lightings of a subject and those that have a successor in it, the latest first. -/
def lightings (subjectId : String) : List Star :=
  (course.stars.filter fun star => star.state = .lit ∧ (course.subjectOf star = subjectId ∨
    (course.successors.getD star.unitId []).any fun unitId =>
      (course.byId.get? unitId).any fun other => course.subjectOf other = subjectId)).insertionSort
    fun a b => course.lightingKey subjectId b ≤ course.lightingKey subjectId a

-- The keys are compared by the order that can be computed.
local instance : Preorder ℤ := Int.instLinearOrder.toPartialOrder.toPreorder

/-- `_recommendation` -/
def recommendation (subjectId : String) : Option (Star × Recommendation) :=
  match ((course.mine subjectId).filter fun star => star.state = .inProgress).argmax course.progressKey with
  | some latest => some (latest, ⟨.inProgress, none⟩)
  | none =>
    match course.frontier subjectId with
    | [] => none
    | first :: _ =>
      ((course.lightings subjectId).findSome? fun lit =>
        (course.after subjectId lit).map fun following => (following, ⟨.afterLit, some lit.unitId⟩)).or
        (some (first, ⟨.start, none⟩))

end Course

/-- The units that state a unit as their prerequisite. -/
def successors (units : List CatalogUnit) : OrderedDict String (List String) :=
  units.foldl (fun found unit => (unit.prerequisiteUnitIds.getD []).foldl
    (fun found before => found.insert before (found.getD before [] ++ [unit.id])) found) .empty

def subjectIndex (topics : List Topic) : OrderedDict String String :=
  OrderedDict.ofPairs ((topics.insertionSort Topic.before).map fun topic => (topic.id, topic.subjectId))

/-- The course of a map. -/
def courseOf (atlas : Atlas) (facts : Facts) (units : List CatalogUnit) (lastEvidenceByUnit : OrderedDict String String) :
    Course where
  stars := buildMap atlas facts units
  subjectOfNebula := subjectIndex facts.topics
  successors := successors units
  facts := facts.litFacts
  evidence := lastEvidenceByUnit

def isEnrolled (atlas : Atlas) (enrolledSubjectIds : List String) (subject : Subject) : Bool :=
  normalSubjectId atlas subject.id ∈ enrolledSubjectIds.map (normalSubjectId atlas)

/-- Write a recommendation on its star. -/
def mark (picked : Option (Star × Recommendation)) (stars : List (Star × Option Recommendation)) :
    List (Star × Option Recommendation) :=
  match picked with
  | none => stars
  | some (star, recommendation) => stars.map fun s => if s.1.unitId = star.unitId then (s.1, some recommendation) else s

def Subject.inOrder (a b : Subject) : Prop := a.order ≤ b.order

instance : DecidableRel Subject.inOrder := fun a b => inferInstanceAs (Decidable (a.order ≤ b.order))

/-- The stars of `build_map` with what it recommends, one subject after the other. -/
def markedStars (atlas : Atlas) (facts : Facts) (subjects : List Subject) (units : List CatalogUnit)
    (enrolledSubjectIds : List String) (lastEvidenceByUnit : OrderedDict String String) :
    List (Star × Option Recommendation) :=
  let course := courseOf atlas facts units lastEvidenceByUnit
  ((subjects.insertionSort Subject.inOrder).filter (isEnrolled atlas enrolledSubjectIds)).foldl
    (fun stars subject => mark (course.recommendation subject.id) stars)
    (course.stars.map fun star => (star, none))

end Stoa.StarMap
