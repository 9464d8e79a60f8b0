import Stoa.Model.AskAnswer
import Stoa.Data.JsonReading

/-! # Answers to questions

A star that an answer names is one of the list that checked it, and an answer that was kept
as JSON is read back. -/

namespace Stoa.Ask

open PyText JsonText
open Stoa.AskPrompt (Candidate topicRefs)

variable {validation : Pydantic}

/-! ## What is kept is read back -/

theorem mapM_map {α β : Type} {w : α → β} {r : β → Option α} (h : ∀ x, r (w x) = some x) (xs : List α) :
    (xs.map w).mapM r = some xs := by
  induction xs with
  | nil => rfl
  | cons x xs ih => simp [List.mapM_cons, h, ih]

theorem readList_map {α : Type} {w : α → Value} {r : Value → Option α} (h : ∀ x, r (w x) = some x) (xs : List α) :
    readList r (.arr (xs.map w)) = some xs := mapM_map h xs

theorem readText_str (text : Str) : readText (.str text) = some text := rfl

theorem readOptional_optional (text : Option Str) : readOptional (some (optional text)) = some text := by
  cases text <;> rfl

theorem KnowledgePoint.validate_dump (point : KnowledgePoint validation) : KnowledgePoint.validate point.dump = some point := by
  obtain ⟨name, unitId, haccepted⟩ := point
  change (do
    let name ← readText (.str name)
    let unitId ← readOptional (some (optional unitId))
    KnowledgePoint.make? name unitId) = _
  rw [readText_str, readOptional_optional]
  exact dif_pos haccepted

theorem Kind.read_value (kind : Kind) : Kind.read (.str kind.value) = some kind := by cases kind <;> rfl

theorem StructuredAnswer.validate_dump (structured : StructuredAnswer validation) :
    StructuredAnswer.validate structured.dump = some structured := by
  obtain ⟨kind, steps, answer, hints, similar, points, suggest, haccepted⟩ := structured
  change (do
    let kind ← Kind.read (.str kind.value)
    let steps ← readList readText (.arr (steps.map .str))
    let answer ← readText (.str answer)
    let hints ← readList readText (.arr (hints.map .str))
    let similar ← readList readText (.arr (similar.map .str))
    let points ← readList KnowledgePoint.validate (.arr (points.map KnowledgePoint.dump))
    let suggest ← validation.flag (.bool suggest)
    StructuredAnswer.make? kind steps answer hints similar points suggest) = _
  rw [Kind.read_value, readList_map readText_str, readText_str, readList_map readText_str, readList_map readText_str,
    readList_map KnowledgePoint.validate_dump, validation.flag_bool]
  exact dif_pos haccepted

/-- An answer that can be kept: it has a text, and its star has an id. -/
def Kept (answer : AskAnswer validation) : Prop := answer.content ≠ [] ∧ answer.targetUnitId ≠ some []

theorem AskAnswer.fromJson_toJson {answer : AskAnswer validation} (h : Kept answer) :
    AskAnswer.fromJson answer.toJson = some answer := by
  obtain ⟨content, structured, target, gaps, points⟩ := answer
  have hkept : ¬ (content = [] ∨ target = some []) := fun hor => hor.elim h.1 h.2
  change (do
    let content ← readText (.str content)
    let target ← readOptional (some (optional target))
    let gaps ← readList readText (.arr (gaps.map .str))
    let items ← readList some (.arr (points.map KnowledgePoint.dump))
    if content = [] ∨ target = some [] then none
    else do
      let structured ← StructuredAnswer.validate structured.dump
      let askedPoints ← items.mapM KnowledgePoint.validate
      some (⟨content, structured, target, gaps, askedPoints⟩ : AskAnswer validation)) = _
  have hitems : readList some (.arr (points.map KnowledgePoint.dump)) = some (points.map KnowledgePoint.dump) := by
    have hlist := readList_map (w := id) (r := some) (fun _ => rfl) (points.map KnowledgePoint.dump)
    rwa [List.map_id] at hlist
  rw [readText_str, readOptional_optional, readList_map readText_str, hitems]
  simp only [Option.bind_eq_bind, Option.bind_some, if_neg hkept, StructuredAnswer.validate_dump,
    mapM_map KnowledgePoint.validate_dump]

theorem distinctItems_map {α : Type} {w : α → Value} (h : ∀ x, (w x).Distinct) (xs : List α) :
    DistinctItems (xs.map w) := by
  induction xs with
  | nil => trivial
  | cons x xs ih => exact ⟨h x, ih⟩

theorem distinct_texts (texts : List Str) : (Value.arr (texts.map .str)).Distinct :=
  distinctItems_map (w := .str) (fun _ => trivial) texts

theorem distinct_optional (text : Option Str) : (optional text).Distinct := by cases text <;> trivial

theorem KnowledgePoint.dump_distinct (point : KnowledgePoint validation) : point.dump.Distinct := by
  have hnames : [str "name", str "unitId"].Nodup := by decide
  exact ⟨hnames, trivial, distinct_optional _, trivial⟩

theorem distinct_points (points : List (KnowledgePoint validation)) : (Value.arr (points.map KnowledgePoint.dump)).Distinct :=
  distinctItems_map KnowledgePoint.dump_distinct points

theorem StructuredAnswer.dump_distinct (structured : StructuredAnswer validation) : structured.dump.Distinct := by
  have hnames : [str "kind", str "steps", str "answer", str "hints", str "similarExercises", str "knowledgePoints",
    str "suggestTeacher"].Nodup := by decide
  exact ⟨hnames, trivial, distinct_texts _, trivial, distinct_texts _, distinct_texts _, distinct_points _, trivial, trivial⟩

theorem AskAnswer.toJson_distinct (answer : AskAnswer validation) : answer.toJson.Distinct := by
  have hnames : [str "content", str "structured", str "targetUnitId", str "knowledgeGaps", str "askedPoints"].Nodup := by
    decide
  exact ⟨hnames, trivial, answer.structured.dump_distinct, distinct_optional _, distinct_texts _, distinct_points _, trivial⟩

/-- The JSON text of an answer gives the answer back. -/
theorem loads_toJson {answer : AskAnswer validation} (h : Kept answer) {gap : Str} (hgap : ∀ c ∈ gap, isBlank c = true) :
    (loads (dumps gap answer.toJson)).bind AskAnswer.fromJson = some answer := by
  rw [loads_dumps hgap answer.toJson_distinct]
  exact AskAnswer.fromJson_toJson h

/-! ## The list of stars -/

section

variable {topics : List Topic} {units : List CatalogUnit} {states : Str → Option Judged} {stars : List Candidate}
  {star : Candidate} {named : Option Value}

/-- A star of the list has a ref of its own kind, and an id. -/
theorem mem_fromCatalog (h : star ∈ fromCatalog topics units states) :
    (∃ index, star.ref = str "k" ++ decimal index) ∧ star.unitId ≠ [] := by
  obtain ⟨⟨⟨unit, judged⟩, index⟩, hmem, rfl⟩ := List.mem_map.mp h
  refine ⟨⟨index, rfl⟩, ?_⟩
  have hdrawn : (unit, judged) ∈ drawn units states :=
    (List.mem_insertionSort _).mp (List.fst_mem_of_mem_zipIdx hmem)
  obtain ⟨unit', -, heq⟩ := List.mem_filterMap.mp hdrawn
  split at heq
  · split at heq
    · rename_i hkeep
      cases heq
      exact hkeep.2
    · cases heq
  · cases heq

/-- The ref of the topic at a place. -/
def topicRef (place : ℕ) : Str := str "t" ++ decimal (place + 1)

theorem topicRef_injective {m n : ℕ} (h : topicRef m = topicRef n) : m = n :=
  Nat.succ_injective (decimal_injective (List.append_cancel_left h))

/-- The topics have their refs in order. -/
theorem topicRefs_snd (stars : List Candidate) :
    (topicRefs stars).map Prod.snd = (List.range (topicRefs stars).length).map topicRef := by
  have hfold : ∀ (stars : List Candidate) (refs : List (Str × Str)),
      refs.map Prod.snd = (List.range refs.length).map topicRef →
      let later := stars.foldl (fun refs candidate => if candidate.topicId ∈ refs.map Prod.fst then refs
        else refs ++ [(candidate.topicId, str "t" ++ decimal (refs.length + 1))]) refs
      later.map Prod.snd = (List.range later.length).map topicRef := fun stars => by
    induction stars with
    | nil => exact fun _ h => h
    | cons star stars ih =>
        intro refs h
        refine ih _ ?_
        dsimp only
        split
        · exact h
        · rw [List.map_append, h, List.length_append, List.length_singleton, List.range_succ, List.map_append]
          rfl
  exact hfold stars [] rfl

theorem topicRefs_nodup (stars : List Candidate) : ((topicRefs stars).map Prod.snd).Nodup := by
  rw [topicRefs_snd]
  exact List.nodup_range.map fun _ _ h => topicRef_injective h

/-- The ref of a topic is the ref of no star. -/
theorem find_topicRef (hstars : ∀ star ∈ stars, ∃ index, star.ref = str "k" ++ decimal index) {ref topic : Str}
    (h : (topic, PyText.strip ref) ∈ topicRefs stars) : find (some stars) (some (.str ref)) = none := by
  have hsnd : PyText.strip ref ∈ (topicRefs stars).map Prod.snd := List.mem_map.mpr ⟨_, h, rfl⟩
  rw [topicRefs_snd] at hsnd
  obtain ⟨place, -, hplace⟩ := List.mem_map.mp hsnd
  refine List.find?_eq_none.mpr fun star hstar heq => ?_
  obtain ⟨index, hindex⟩ := hstars star hstar
  rw [decide_eq_true_eq, hindex, ← hplace] at heq
  cases heq

theorem findTopic_topicRef {ref topic : Str} (h : (topic, PyText.strip ref) ∈ topicRefs stars) :
    findTopic (some stars) (some (.str ref)) = stars.filter fun star => star.topicId = topic := by
  have hfind : (topicRefs stars).find? (fun entry => entry.2 = PyText.strip ref) = some (topic, PyText.strip ref) := by
    obtain ⟨entry, hentry⟩ := Option.isSome_iff_exists.mp
      (List.find?_isSome (p := fun entry => entry.2 = PyText.strip ref) |>.mpr ⟨_, h, by simp⟩)
    have hsame : entry.2 = PyText.strip ref := by simpa using List.find?_some hentry
    rw [hentry, List.inj_on_of_nodup_map (topicRefs_nodup stars) (List.mem_of_find?_eq_some hentry) h hsame]
  simp only [findTopic, Option.getD_some, hfind]

/-- What is recommended among some stars: one in progress, else one that is ready. -/
inductive Recommended (stars : List Candidate) : Option Str → Prop
  | inProgress {star : Candidate} (h : star ∈ stars) (hstate : star.state = str "in_progress") : Recommended stars (some star.unitId)
  | ready {star : Candidate} (hno : ∀ star ∈ stars, star.state ≠ str "in_progress") (h : star ∈ stars) (hstate : star.state = str "ready") :
      Recommended stars (some star.unitId)
  | nothing (hno : ∀ star ∈ stars, star.state ≠ str "in_progress" ∧ star.state ≠ str "ready") : Recommended stars none

theorem recommendedUnit_recommended (hids : ∀ star ∈ stars, star.unitId ≠ []) :
    Recommended stars (if recommendedUnit stars = [] then none else some (recommendedUnit stars)) := by
  cases hprogress : stars.find? fun star => star.state = str "in_progress" with
  | some star =>
      have hunit : recommendedUnit stars = star.unitId := by simp [recommendedUnit, hprogress]
      have hmem := List.mem_of_find?_eq_some hprogress
      rw [hunit, if_neg (hids star hmem)]
      exact .inProgress hmem (by simpa using List.find?_some hprogress)
  | none =>
      have hno : ∀ star ∈ stars, star.state ≠ str "in_progress" := by simpa using hprogress
      cases hready : stars.find? fun star => star.state = str "ready" with
      | some star =>
          have hunit : recommendedUnit stars = star.unitId := by simp [recommendedUnit, hprogress, hready]
          have hmem := List.mem_of_find?_eq_some hready
          rw [hunit, if_neg (hids star hmem)]
          exact .ready hno hmem (by simpa using List.find?_some hready)
      | none =>
          have hunit : recommendedUnit stars = [] := by simp [recommendedUnit, hprogress, hready]
          rw [if_pos hunit]
          have hnone : ∀ star ∈ stars, star.state ≠ str "ready" := by simpa using hready
          exact .nothing fun star h => ⟨hno star h, hnone star h⟩

theorem Recommended.mem {unitId : Str} (h : Recommended stars (some unitId)) : ∃ star ∈ stars, star.unitId = unitId := by
  cases h with
  | inProgress h => exact ⟨_, h, rfl⟩
  | ready _ h => exact ⟨_, h, rfl⟩

theorem mem_of_find {starMap : Option (List Candidate)} (h : find starMap named = some star) : star ∈ starMap.getD [] := by
  unfold find at h
  split at h
  · exact List.mem_of_find?_eq_some h
  · cases h

theorem mem_of_findTopic {starMap : Option (List Candidate)} (h : star ∈ findTopic starMap named) : star ∈ starMap.getD [] := by
  unfold findTopic at h
  split at h
  · split at h
    · exact (List.mem_filter.mp h).1
    · cases h
  · cases h

end

/-! ## The checked answer -/

section

variable {reply : Value} {followUp : Bool} {locale : Str} {starMap : Option (List Candidate)} {a : AskAnswer validation}

/-- What holds of an answer that was checked against the stars that were read for it. -/
structure Checked (reply : Value) (followUp : Bool) (starMap : Option (List Candidate)) (a : AskAnswer validation) : Prop where
  named : ∀ point ∈ a.structured.knowledgePoints, ∀ unitId, point.unitId = some unitId →
    ∃ star ∈ starMap.getD [], star.unitId = unitId ∧ star.name = point.name
  asked : ∀ point ∈ a.askedPoints, point ∈ a.structured.knowledgePoints
  target : ∀ unitId, a.targetUnitId = some unitId → ∃ star ∈ starMap.getD [], star.unitId = unitId
  topic : ∀ ref topic, reply.get? (str "target_unit_id") = some (.str ref) →
    (topic, PyText.strip ref) ∈ topicRefs (starMap.getD []) →
    Recommended ((starMap.getD []).filter fun star => star.topicId = topic) a.targetUnitId
  gaps : a.knowledgeGaps = if starMap.isSome then
    (a.structured.knowledgePoints.filter fun point => point.unitId.isNone).map KnowledgePoint.name else []
  followUp : followUp = true → a.targetUnitId = none ∧ (∀ point ∈ a.structured.knowledgePoints, point.unitId = none) ∧
    a.knowledgeGaps = [] ∧ a.askedPoints = []
  read : ∀ gap : Str, (∀ c ∈ gap, isBlank c = true) → (loads (dumps gap a.toJson)).bind AskAnswer.fromJson = some a

theorem namedPoint_star {value : Value} {name unitId : Str} (h : namedPoint starMap value = some (name, some unitId)) :
    ∃ star ∈ starMap.getD [], star.unitId = unitId ∧ star.name = name := by
  unfold namedPoint at h
  split at h
  · split at h <;> cases h
  · split at h
    · rename_i star hstar
      cases h
      exact ⟨star, mem_of_find hstar, rfl, rfl⟩
    · split at h
      · split at h <;> cases h
      · cases h
  · cases h

theorem mem_of_mapM {α β : Type} {f : α → Option β} {xs : List α} {ys : List β} (h : xs.mapM f = some ys) {y : β}
    (hy : y ∈ ys) : ∃ x ∈ xs, f x = some y := by
  induction xs generalizing ys with
  | nil =>
      cases h
      cases hy
  | cons x xs ih =>
      rw [List.mapM_cons] at h
      obtain ⟨first, hfirst, h⟩ := Option.bind_eq_some_iff.mp h
      obtain ⟨rest, hrest, heq⟩ := Option.bind_eq_some_iff.mp h
      cases heq
      rcases List.mem_cons.mp hy with rfl | hy
      · exact ⟨x, List.mem_cons_self .., hfirst⟩
      · obtain ⟨x', hx', hf⟩ := ih hrest hy
        exact ⟨x', List.mem_cons_of_mem _ hx', hf⟩

theorem KnowledgePoint.make?_eq_some {name : Str} {unitId : Option Str} {point : KnowledgePoint validation}
    (h : KnowledgePoint.make? name unitId = some point) : point.name = name ∧ point.unitId = unitId := by
  unfold KnowledgePoint.make? at h
  split at h
  · cases h
    exact ⟨rfl, rfl⟩
  · cases h

/-- A point with a star has the name and the id of one that was shown. -/
theorem pointsOf_star {named : Option Value} {points : List (KnowledgePoint validation)} (h : pointsOf starMap named = some points)
    {point : KnowledgePoint validation} (hpoint : point ∈ points) {unitId : Str} (hunit : point.unitId = some unitId) :
    ∃ star ∈ starMap.getD [], star.unitId = unitId ∧ star.name = point.name := by
  unfold pointsOf at h
  split at h
  · obtain ⟨⟨name, unit⟩, hmem, hmake⟩ := mem_of_mapM h hpoint
    obtain ⟨value, -, hvalue⟩ := List.mem_filterMap.mp hmem
    obtain ⟨hname, hid⟩ := KnowledgePoint.make?_eq_some hmake
    rw [hid] at hunit
    subst hunit
    rw [hname]
    exact namedPoint_star hvalue
  · cases h
    cases hpoint

theorem StructuredAnswer.make?_points {kind : Kind} {steps hints similar : List Str} {answer : Str}
    {points : List (KnowledgePoint validation)} {suggest : Bool} {structured : StructuredAnswer validation}
    (h : StructuredAnswer.make? kind steps answer hints similar points suggest = some structured) :
    structured.knowledgePoints = points := by
  unfold StructuredAnswer.make? at h
  split at h
  · cases h
    rfl
  · cases h

theorem structuredAnswer_points {structured : StructuredAnswer validation} (h : structuredAnswer reply starMap = some structured) :
    pointsOf starMap (reply.get? (str "knowledge_points")) = some structured.knowledgePoints := by
  obtain ⟨points, hpoints, hmake⟩ := Option.bind_eq_some_iff.mp h
  rw [hpoints, StructuredAnswer.make?_points hmake]

theorem joinedText_ne_nil {text : Str} (h : joinedText reply locale = .ok text) : text ≠ [] := by
  have hcheck : ∀ joined : Str, (if joined = [] then .error .malformedResponse else .ok joined : Except Failure Str) = .ok text →
      text ≠ [] := fun joined h => by
    split at h
    · cases h
    · rename_i hne
      cases h
      exact hne
  unfold joinedText at h
  split at h
  · exact hcheck _ h
  · cases h

theorem targetUnitId_star (hids : ∀ star ∈ starMap.getD [], star.unitId ≠ []) {unitId : Str}
    (h : targetUnitId reply starMap = some unitId) : ∃ star ∈ starMap.getD [], star.unitId = unitId := by
  dsimp only [targetUnitId] at h
  split at h
  · rename_i star hstar
    cases h
    exact ⟨star, mem_of_find hstar, rfl⟩
  · have htopic : ∀ star ∈ findTopic starMap (reply.get? (str "target_unit_id")), star.unitId ≠ [] := fun star hstar =>
      hids star (mem_of_findTopic hstar)
    have hrecommended := recommendedUnit_recommended htopic
    rw [h] at hrecommended
    obtain ⟨star, hstar, hunit⟩ := hrecommended.mem
    exact ⟨star, mem_of_findTopic hstar, hunit⟩

theorem targetUnitId_topic {stars : List Candidate} (hrefs : ∀ star ∈ stars, ∃ index, star.ref = str "k" ++ decimal index)
    (hids : ∀ star ∈ stars, star.unitId ≠ []) {ref topic : Str} (hnamed : reply.get? (str "target_unit_id") = some (.str ref))
    (htopic : (topic, PyText.strip ref) ∈ topicRefs stars) :
    Recommended (stars.filter fun star => star.topicId = topic) (targetUnitId reply (some stars)) := by
  dsimp only [targetUnitId]
  rw [hnamed, find_topicRef hrefs htopic, findTopic_topicRef htopic]
  exact recommendedUnit_recommended fun star h => hids star (List.mem_filter.mp h).1

/-- The stars of the map that was read, if one was: each has a ref, and an id. -/
def Listed (starMap : Option (List Candidate)) : Prop :=
  ∀ star ∈ starMap.getD [], (∃ index, star.ref = str "k" ++ decimal index) ∧ star.unitId ≠ []

theorem answerFrom_checked (hlist : Listed starMap) (hfollow : followUp = true → starMap = none)
    (h : answerFrom reply followUp locale starMap = .ok a) : Checked reply followUp starMap a := by
  unfold answerFrom at h
  split at h
  · rename_i members
    split at h
    · rename_i structured content hstructured hcontent
      cases h
      have hpoints := structuredAnswer_points hstructured
      have hnamed : ∀ point ∈ structured.knowledgePoints, ∀ unitId, point.unitId = some unitId →
          ∃ star ∈ starMap.getD [], star.unitId = unitId ∧ star.name = point.name :=
        fun point hpoint unitId hunit => pointsOf_star hpoints hpoint hunit
      have htarget : ∀ unitId, targetUnitId (.obj members) starMap = some unitId →
          ∃ star ∈ starMap.getD [], star.unitId = unitId :=
        fun unitId => targetUnitId_star fun star hstar => (hlist star hstar).2
      have hread : targetUnitId (.obj members) starMap ≠ some [] := fun hnil => by
        obtain ⟨star, hstar, hunit⟩ := htarget [] hnil
        exact (hlist star hstar).2 hunit
      refine ⟨hnamed, fun point hpoint => ?_, htarget, fun ref topic href htopic => ?_, rfl, fun hasked => ?_,
        fun gap hgap => loads_toJson ⟨joinedText_ne_nil hcontent, hread⟩ hgap⟩
      · dsimp only at hpoint
        split at hpoint
        · cases hpoint
        · exact hpoint
      · cases hshown : starMap with
        | none =>
            rw [hshown] at htopic
            cases htopic
        | some stars =>
            rw [hshown] at htopic
            unfold Listed at hlist
            rw [hshown] at hlist
            exact targetUnitId_topic (fun star hstar => (hlist star hstar).1) (fun star hstar => (hlist star hstar).2)
              href htopic
      · have hnone := hfollow hasked
        subst hnone
        refine ⟨?_, fun point hpoint => ?_, rfl, if_pos hasked⟩
        · refine Option.eq_none_iff_forall_ne_some.mpr fun unitId hunit => ?_
          obtain ⟨star, hstar, -⟩ := htarget unitId hunit
          cases hstar
        · refine Option.eq_none_iff_forall_ne_some.mpr fun unitId hunit => ?_
          obtain ⟨star, hstar, -⟩ := hnamed point hpoint unitId hunit
          cases hstar
    · cases h
    · cases h
  · cases h

/-- **Answers.** What an answer says of the star map is what the map that was read says, and
the answer survives being kept. -/
theorem answer_checked {readStarMap : Option (List Candidate)} {replies : Option (List Candidate) → Except Failure Value}
    (hmap : ∀ stars, readStarMap = some stars → ∃ topics units states, stars = fromCatalog topics units states)
    (h : answer followUp locale readStarMap replies = .ok a) :
    ∃ reply, replies (if followUp then none else readStarMap) = .ok reply ∧
      Checked reply followUp (if followUp then none else readStarMap) a := by
  dsimp only [answer] at h
  have hlist : Listed (if followUp then none else readStarMap) := fun star hstar => by
    split at hstar
    · cases hstar
    · cases hread : readStarMap with
      | none =>
          rw [hread] at hstar
          cases hstar
      | some stars =>
          obtain ⟨topics, units, states, rfl⟩ := hmap stars hread
          rw [hread] at hstar
          exact mem_fromCatalog hstar
  cases hreply : replies (if followUp then none else readStarMap) with
  | error e =>
      rw [hreply] at h
      cases h
  | ok reply =>
      rw [hreply] at h
      exact ⟨reply, rfl, answerFrom_checked hlist (fun hfollow => if_pos hfollow) h⟩

/-- Every text is taken, and nothing but a flag for a flag. -/
def plainValidation : Pydantic where
  text _ := true
  flag
    | .bool b => some b
    | _ => none
  flag_bool _ := rfl

/-- A reply that names a star, and a topic to go to. -/
theorem answer_checked_one :
    let stars := fromCatalog [⟨str "t", str "Topic", 1⟩] [⟨str "u", str "Unit", str "s", str "t", 1⟩]
      fun _ => some ⟨1, .ready⟩
    let reply : Value := .obj [(str "answer", .str (str "x")),
      (str "knowledge_points", .arr [.obj [(str "id", .str (str "k1"))], .str (str "free")]),
      (str "target_unit_id", .str (str "t1"))]
    ∃ a : AskAnswer plainValidation, answer false (str "de") (some stars) (fun _ => .ok reply) = .ok a ∧
      ∃ value, (fun _ => .ok reply : Option (List Candidate) → Except Failure Value) (some stars) = .ok value ∧
        Checked value false (some stars) a := by
  intro stars reply
  have hok : ∃ a : AskAnswer plainValidation, answer false (str "de") (some stars) (fun _ => .ok reply) = .ok a := by
    have hsome : (answer false (str "de") (some stars) fun _ => .ok reply :
        Except Failure (AskAnswer plainValidation)).toOption.isSome = true := by decide +kernel
    cases ha : (answer false (str "de") (some stars) fun _ => .ok reply : Except Failure (AskAnswer plainValidation)) with
    | ok a => exact ⟨a, rfl⟩
    | error e => simp [ha, Except.toOption] at hsome
  obtain ⟨a, ha⟩ := hok
  exact ⟨a, ha, answer_checked (fun shown hshown => ⟨_, _, _, (Option.some.inj hshown).symm⟩) ha⟩

end

end Stoa.Ask
