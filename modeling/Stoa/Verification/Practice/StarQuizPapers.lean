import Stoa.Model.StarQuiz
import Stoa.Verification.Mastery.Prerequisites
import Mathlib.Data.List.Flatten
import Mathlib.Data.List.Pairwise
import Mathlib.Data.Finset.Card

/-! # The paper of a star quiz

What a paper owes to the lessons of its star, and when every draw gives that. -/

namespace Stoa.Practice

open Mastery

/-! ## Exercises with the position of their lesson -/

def slots (lessons : List (List String)) : List (ℕ × String) :=
  lessons.zipIdx.flatMap fun lesson => lesson.1.map fun item => (lesson.2, item)

theorem mem_slots {lessons : List (List String)} {slot : ℕ × String} :
    slot ∈ slots lessons ↔ ∃ ids, lessons[slot.1]? = some ids ∧ slot.2 ∈ ids := by
  obtain ⟨index, item⟩ := slot
  simp only [slots, List.mem_flatMap, List.mem_map, Prod.mk.injEq]
  constructor
  · rintro ⟨⟨ids, i⟩, hmem, x, hx, rfl, rfl⟩
    exact ⟨ids, List.mem_zipIdx_iff_getElem?.mp hmem, hx⟩
  · rintro ⟨ids, hids, hitem⟩
    exact ⟨(ids, index), List.mem_zipIdx_iff_getElem?.mpr hids, item, hitem, rfl, rfl⟩

theorem nodup_slots {lessons : List (List String)} (h : ∀ ids ∈ lessons, ids.Nodup) :
    (slots lessons).Nodup := by
  refine List.nodup_flatMap.mpr ⟨?_, ?_⟩
  · rintro ⟨ids, index⟩ hmem
    have hids : ids ∈ lessons := List.mem_of_getElem? (List.mem_zipIdx_iff_getElem?.mp hmem)
    exact (h ids hids).map fun x y hxy => (Prod.mk.inj hxy).2
  · refine List.pairwise_iff_getElem.mpr fun i j hi hj hij => ?_
    simp only [Function.onFun, List.getElem_zipIdx, List.Disjoint, List.mem_map]
    rintro slot ⟨x, -, rfl⟩ ⟨y, -, hy⟩
    have := congrArg Prod.fst hy
    simp only at this
    omega

theorem length_slots (lessons : List (List String)) :
    (slots lessons).length = (lessons.map List.length).sum := by
  have hlengths : (lessons.zipIdx.map fun lesson => (lesson.1.map fun item => (lesson.2, item)).length)
      = lessons.map List.length := by
    simp only [List.length_map]
    rw [← Function.comp_def List.length Prod.fst, ← List.map_map, List.zipIdx_map_fst]
  rw [slots, List.length_flatMap, hlengths]

/-! ## What is chosen -/

theorem mem_chosenFor_modify {chosen : List (Finset String)} {index i : ℕ} {item x : String}
    (h : index < chosen.length) :
    x ∈ chosenFor (chosen.modify index (insert item)) i ↔
      x ∈ chosenFor chosen i ∨ (i, x) = (index, item) := by
  simp only [chosenFor, List.getD_eq_getElem?_getD, List.getElem?_modify, Prod.mk.injEq]
  by_cases hi : index = i
  · subst hi
    simp only [if_true, List.getElem?_eq_getElem h, Option.map_eq_map, Option.map_some,
      Option.getD_some, Finset.mem_insert, true_and]
    exact or_comm
  · have hi' : ¬ i = index := fun h => hi h.symm
    simp [hi, hi']

theorem mem_chosenFor_chooseAlso {chosen : List (Finset String)} {more : List (ℕ × String)}
    (h : ∀ slot ∈ more, slot.1 < chosen.length) {i : ℕ} {x : String} :
    x ∈ chosenFor (chooseAlso chosen more) i ↔ x ∈ chosenFor chosen i ∨ (i, x) ∈ more := by
  induction more generalizing chosen with
  | nil => simp [chooseAlso]
  | cons slot more ih =>
      obtain ⟨index, item⟩ := slot
      have hindex : index < chosen.length := h (index, item) (by simp)
      have hmore : ∀ slot ∈ more, slot.1 < (chosen.modify index (insert item)).length := by
        intro slot hslot
        rw [List.length_modify]
        exact h slot (List.mem_cons_of_mem _ hslot)
      rw [chooseAlso, ih hmore, mem_chosenFor_modify hindex, List.mem_cons]
      tauto

theorem mem_chosenFor_first {rng : PaperRng} {lessons : List (List String)} {i : ℕ} {x : String} :
    x ∈ chosenFor (firstChoices rng lessons) i ↔
      ∃ ids, lessons[i]? = some ids ∧ x = rng.choice i ids := by
  simp only [chosenFor, firstChoices, List.getD_eq_getElem?_getD, List.getElem?_mapIdx]
  cases h : lessons[i]? with
  | none => simp
  | some ids => simp

theorem length_firstChoices (rng : PaperRng) (lessons : List (List String)) :
    (firstChoices rng lessons).length = lessons.length := List.length_mapIdx

/-! ## The size of the paper -/

section

variable {rng : PaperRng} {lessons : List (List String)}

/-- The exercises that stand for their lessons. -/
def firstSlots (rng : PaperRng) (lessons : List (List String)) : List (ℕ × String) :=
  lessons.zipIdx.map fun lesson => (lesson.2, rng.choice lesson.2 lesson.1)

theorem mem_firstSlots {slot : ℕ × String} :
    slot ∈ firstSlots rng lessons ↔ slot.2 ∈ chosenFor (firstChoices rng lessons) slot.1 := by
  obtain ⟨index, item⟩ := slot
  simp only [mem_chosenFor_first, firstSlots, List.mem_map, Prod.mk.injEq]
  constructor
  · rintro ⟨⟨ids, i⟩, hmem, rfl, rfl⟩
    exact ⟨ids, List.mem_zipIdx_iff_getElem?.mp hmem, rfl⟩
  · rintro ⟨ids, hids, rfl⟩
    exact ⟨(ids, index), List.mem_zipIdx_iff_getElem?.mpr hids, rfl, rfl⟩

theorem nodup_firstSlots : (firstSlots rng lessons).Nodup := by
  refine List.Nodup.of_map Prod.fst ?_
  rw [firstSlots, List.map_map]
  change (lessons.zipIdx.map Prod.snd).Nodup
  rw [List.zipIdx_map_snd]
  exact List.nodup_range'

/-- Every lesson has an exercise and lists it once. -/
structure Listed (lessons : List (List String)) : Prop where
  nonempty : ∀ ids ∈ lessons, ids ≠ []
  nodup : ∀ ids ∈ lessons, ids.Nodup

theorem listed_paperLessons (exercisesByLesson : List (List String)) :
    Listed (paperLessons exercisesByLesson) where
  nonempty := by
    intro ids hids
    obtain ⟨stated, hstated, rfl⟩ := List.mem_map.mp hids
    have hne : stated ≠ [] := by simpa using (List.mem_filter.mp hstated).2
    obtain ⟨item, hitem⟩ := List.exists_mem_of_ne_nil stated hne
    exact List.ne_nil_of_mem (mem_fromKeys.mpr hitem)
  nodup := by
    intro ids hids
    obtain ⟨stated, -, rfl⟩ := List.mem_map.mp hids
    exact nodup_fromKeys stated

theorem mem_slots_of_mem_firstSlots (h : Listed lessons) {slot : ℕ × String}
    (hslot : slot ∈ firstSlots rng lessons) : slot ∈ slots lessons := by
  rw [mem_firstSlots, mem_chosenFor_first] at hslot
  obtain ⟨ids, hids, hchoice⟩ := hslot
  refine mem_slots.mpr ⟨ids, hids, ?_⟩
  rw [hchoice]
  exact rng.choice_mem slot.1 ids (h.nonempty ids (List.mem_of_getElem? hids))

/-- The part of the lessons that is chosen. -/
def drawnOf (lessons : List (List String)) (chosen : List (Finset String)) : List (ℕ × String) :=
  (slots lessons).filter fun slot => slot.2 ∈ chosenFor chosen slot.1

theorem restOf_eq (chosen : List (Finset String)) :
    restOf lessons chosen =
      (slots lessons).filter fun slot => slot.2 ∉ chosenFor chosen slot.1 := by
  simp only [restOf, slots, List.filter_flatMap, List.filter_map, Function.comp_def]

/-- What is drawn: the first choices and some of the rest. -/
theorem drawn_perm (rng : PaperRng) (h : Listed lessons) {more : List (ℕ × String)} (hmore : more.Nodup)
    (hrest : ∀ slot ∈ more, slot ∈ restOf lessons (firstChoices rng lessons)) :
    (drawnOf lessons (chooseAlso (firstChoices rng lessons) more)).Perm
      (firstSlots rng lessons ++ more) := by
  have hslots : ∀ slot ∈ more, slot ∈ slots lessons := by
    intro slot hslot
    have := hrest slot hslot
    rw [restOf_eq] at this
    exact (List.mem_filter.mp this).1
  have hindex : ∀ slot ∈ more, slot.1 < (firstChoices rng lessons).length := by
    intro slot hslot
    obtain ⟨ids, hids, -⟩ := mem_slots.mp (hslots slot hslot)
    rw [length_firstChoices]
    exact (List.getElem?_eq_some_iff.mp hids).1
  have hdisjoint : (firstSlots rng lessons).Disjoint more := by
    intro slot hfirst hslot
    have := hrest slot hslot
    rw [restOf_eq] at this
    exact absurd (mem_firstSlots.mp hfirst) (by simpa using (List.mem_filter.mp this).2)
  refine (List.perm_ext_iff_of_nodup ((nodup_slots h.nodup).filter _)
    (nodup_firstSlots.append hmore hdisjoint)).mpr fun slot => ?_
  rw [List.mem_filter, List.mem_append, decide_eq_true_eq, mem_chosenFor_chooseAlso hindex,
    ← mem_firstSlots]
  constructor
  · exact fun hslot => hslot.2
  · rintro (hfirst | hslot)
    · exact ⟨mem_slots_of_mem_firstSlots h hfirst, Or.inl hfirst⟩
    · exact ⟨hslots slot hslot, Or.inr hslot⟩

theorem length_drawnOf_add (chosen : List (Finset String)) :
    (drawnOf lessons chosen).length + (restOf lessons chosen).length =
      (lessons.map List.length).sum := by
  rw [← length_slots, restOf_eq, drawnOf,
    (slots lessons).length_eq_length_filter_add fun slot => slot.2 ∈ chosenFor chosen slot.1]
  simp only [decide_not]

theorem length_restOf (rng : PaperRng) (h : Listed lessons) :
    lessons.length + (restOf lessons (firstChoices rng lessons)).length =
      (lessons.map List.length).sum := by
  have hfirst := (drawn_perm rng h List.nodup_nil (by simp)).length_eq
  rw [chooseAlso, List.append_nil, firstSlots, List.length_map, List.length_zipIdx] at hfirst
  rw [← hfirst]
  exact length_drawnOf_add _

/-- The exercises that top the paper up. -/
def topUp (rng : PaperRng) (lessons : List (List String)) : List (ℕ × String) :=
  (rng.shuffle (restOf lessons (firstChoices rng lessons))).take
    (paperSize lessons - lessons.length)

theorem length_drawn (rng : PaperRng) (h : Listed lessons) :
    (drawnOf lessons (chooseAlso (firstChoices rng lessons) (topUp rng lessons))).length =
      paperSize lessons := by
  have hshuffle := rng.shuffle_perm (restOf lessons (firstChoices rng lessons))
  have hrest : (restOf lessons (firstChoices rng lessons)).Nodup := by
    rw [restOf_eq]
    exact (nodup_slots h.nodup).filter _
  have hnodup : (topUp rng lessons).Nodup :=
    (hshuffle.nodup_iff.mpr hrest).sublist (List.take_sublist _ _)
  have hmem : ∀ slot ∈ topUp rng lessons, slot ∈ restOf lessons (firstChoices rng lessons) :=
    fun slot hslot => hshuffle.subset (List.mem_of_mem_take hslot)
  have hlength := length_restOf rng h
  rw [(drawn_perm rng h hnodup hmem).length_eq, List.length_append, firstSlots, List.length_map,
    List.length_zipIdx, topUp, List.length_take, hshuffle.length_eq]
  simp only [paperSize]
  omega

end

/-! ## Fair draws -/

/-- A paper that is a fair draw: `parts` are the exercises of each lesson that has one. -/
structure Fair (lessons parts : List (List String)) : Prop where
  /-- Exercises of the lessons only, as the lessons have them. -/
  ordered : List.Forall₂ List.Sublist parts lessons
  once : parts.flatten.Nodup
  /-- A lesson is left out only if its exercises are all asked for other lessons. -/
  covered : ∀ (index : ℕ) (ids part : List String), lessons[index]? = some ids →
    parts[index]? = some part →
    (∃ item ∈ ids, ∀ other exercises, other ≠ index → parts[other]? = some exercises →
      item ∉ exercises) → part ≠ []
  size : parts.flatten.length =
    min lessons.flatten.toFinset.card (max (nominalSize lessons.length) lessons.length)

/-- A fair draw from the lessons that have an exercise, lesson by lesson. -/
def FairDraw (exercisesByLesson : List (List String)) (paper : List String) : Prop :=
  ∃ parts, paper = parts.flatten ∧ Fair (exercisesByLesson.filter (· ≠ [])) parts

section

variable {exercisesByLesson : List (List String)}

/-- The chosen exercises of each lesson. -/
def partsOf (lessons : List (List String)) (chosen : List (Finset String)) : List (List String) :=
  lessons.zipIdx.map fun lesson => lesson.1.filter fun item => item ∈ chosenFor chosen lesson.2

theorem flatten_partsOf (lessons : List (List String)) (chosen : List (Finset String)) :
    (partsOf lessons chosen).flatten = (drawnOf lessons chosen).map Prod.snd := by
  rw [partsOf, ← List.flatMap_def]
  simp only [drawnOf, slots, List.filter_flatMap, List.filter_map, Function.comp_def,
    List.map_flatMap, List.map_map, List.map_id']

theorem getElem?_partsOf (lessons : List (List String)) (chosen : List (Finset String)) (i : ℕ) :
    (partsOf lessons chosen)[i]? =
      lessons[i]?.map fun ids => ids.filter fun item => item ∈ chosenFor chosen i := by
  rw [partsOf, List.getElem?_map, List.getElem?_zipIdx]
  cases lessons[i]? with
  | none => rfl
  | some ids => simp

theorem slots_map_snd (lessons : List (List String)) :
    (slots lessons).map Prod.snd = lessons.flatten := by
  simp only [slots, List.map_flatMap, List.map_map, Function.comp_def, List.map_id']
  rw [List.flatMap_def, List.zipIdx_map_fst]

theorem partsOf_sublist (lessons : List (List String)) (chosen : List (Finset String)) :
    (partsOf lessons chosen).flatten.Sublist lessons.flatten := by
  rw [flatten_partsOf, ← slots_map_snd]
  exact List.filter_sublist.map Prod.snd

theorem composeByLesson_eq (rng : PaperRng) :
    composeByLesson exercisesByLesson rng =
      partsOf (paperLessons exercisesByLesson)
        (chooseAlso (firstChoices rng (paperLessons exercisesByLesson))
          (topUp rng (paperLessons exercisesByLesson))) := rfl

theorem length_composeByLesson (rng : PaperRng) :
    (composeByLesson exercisesByLesson rng).length = (exercisesByLesson.filter (· ≠ [])).length := by
  rw [composeByLesson_eq, partsOf, List.length_map, List.length_zipIdx, paperLessons,
    List.length_map]

/-- Every exercise chosen at first is in the part of its lesson. -/
theorem choice_mem_part (rng : PaperRng) {i : ℕ} {ids part : List String}
    (hids : (paperLessons exercisesByLesson)[i]? = some ids)
    (hpart : (composeByLesson exercisesByLesson rng)[i]? = some part) :
    rng.choice i ids ∈ part := by
  rw [composeByLesson_eq, getElem?_partsOf, hids, Option.map_some, Option.some_inj] at hpart
  have hne : ids ≠ [] :=
    (listed_paperLessons exercisesByLesson).nonempty ids (List.mem_of_getElem? hids)
  have hindex : ∀ slot ∈ topUp rng (paperLessons exercisesByLesson),
      slot.1 < (firstChoices rng (paperLessons exercisesByLesson)).length := by
    intro slot hslot
    have hrest := (rng.shuffle_perm _).subset (List.mem_of_mem_take hslot)
    rw [restOf_eq] at hrest
    obtain ⟨other, hother, -⟩ := mem_slots.mp (List.mem_filter.mp hrest).1
    rw [length_firstChoices]
    exact (List.getElem?_eq_some_iff.mp hother).1
  rw [← hpart, List.mem_filter, decide_eq_true_eq, mem_chosenFor_chooseAlso hindex]
  exact ⟨rng.choice_mem i ids hne, Or.inl (mem_chosenFor_first.mpr ⟨ids, hids, rfl⟩)⟩

theorem ordered_composeByLesson (rng : PaperRng) :
    List.Forall₂ List.Sublist (composeByLesson exercisesByLesson rng)
      (exercisesByLesson.filter (· ≠ [])) := by
  refine List.forall₂_iff_get.mpr ⟨length_composeByLesson rng, fun i hi hi' => ?_⟩
  simp only [List.get_eq_getElem, composeByLesson_eq, partsOf, List.getElem_map,
    List.getElem_zipIdx, paperLessons]
  exact List.filter_sublist.trans (fromKeys_sublist _)

/-! ## Lessons with exercises of their own -/

theorem disjoint_paperLessons :
    (paperLessons exercisesByLesson).Pairwise List.Disjoint ↔
      exercisesByLesson.Pairwise List.Disjoint := by
  simp only [paperLessons, List.pairwise_map, List.pairwise_filter, decide_eq_true_eq]
  refine List.Pairwise.iff fun ids others => ?_
  simp only [List.Disjoint, mem_fromKeys]
  constructor
  · intro h item hitem hother
    exact h (List.ne_nil_of_mem hitem) (List.ne_nil_of_mem hother) hitem hother
  · exact fun h _ _ => h

theorem flatten_paperLessons_toFinset :
    (paperLessons exercisesByLesson).flatten.toFinset =
      (exercisesByLesson.filter (· ≠ [])).flatten.toFinset := by
  ext item
  simp only [paperLessons, List.mem_toFinset, List.mem_flatten, List.mem_map,
    exists_exists_and_eq_and, mem_fromKeys]

theorem fair_of_disjoint (h : exercisesByLesson.Pairwise List.Disjoint) (rng : PaperRng) :
    Fair (exercisesByLesson.filter (· ≠ [])) (composeByLesson exercisesByLesson rng) where
  ordered := ordered_composeByLesson rng
  once := by
    have hlisted := listed_paperLessons exercisesByLesson
    have hnodup : (paperLessons exercisesByLesson).flatten.Nodup :=
      List.nodup_flatten.mpr ⟨hlisted.nodup, disjoint_paperLessons.mpr h⟩
    exact hnodup.sublist (partsOf_sublist _ _)
  covered := by
    intro i ids part hids hpart _
    have hpaper : (paperLessons exercisesByLesson)[i]? = some (fromKeys ids) := by
      rw [paperLessons, List.getElem?_map, hids, Option.map_some]
    exact List.ne_nil_of_mem (choice_mem_part rng hpaper hpart)
  size := by
    have hlisted := listed_paperLessons exercisesByLesson
    have hnodup : (paperLessons exercisesByLesson).flatten.Nodup :=
      List.nodup_flatten.mpr ⟨hlisted.nodup, disjoint_paperLessons.mpr h⟩
    have hlength : (paperLessons exercisesByLesson).length =
        (exercisesByLesson.filter (· ≠ [])).length := by rw [paperLessons, List.length_map]
    rw [composeByLesson_eq, flatten_partsOf, List.length_map, length_drawn rng hlisted, paperSize,
      ← List.length_flatten, ← List.toFinset_card_of_nodup hnodup, flatten_paperLessons_toFinset,
      hlength, max_comm]

/-- The generator whose choice is one exercise wherever it is listed. -/
def pick (item : String) : PaperRng where
  choice _ ids := if item ∈ ids then item else ids.headD ""
  choice_mem := by
    intro _ ids hne
    split
    · assumption
    · cases ids with
      | nil => exact absurd rfl hne
      | cons first rest => simp
  shuffle rest := rest
  shuffle_perm rest := List.Perm.refl rest

theorem disjoint_of_once (h : ∀ rng, (compose exercisesByLesson rng).Nodup) :
    exercisesByLesson.Pairwise List.Disjoint := by
  refine disjoint_paperLessons.mp (List.pairwise_iff_getElem.mpr fun i j hi hj hij => ?_)
  intro item hitem hother
  have hparts := (List.nodup_flatten.mp (h (pick item))).2
  have hlength : (composeByLesson exercisesByLesson (pick item)).length =
      (paperLessons exercisesByLesson).length := by
    rw [length_composeByLesson, paperLessons, List.length_map]
  have hmem : ∀ {k : ℕ} {ids part : List String}, (paperLessons exercisesByLesson)[k]? = some ids →
      (composeByLesson exercisesByLesson (pick item))[k]? = some part →
      item ∈ ids → item ∈ part := by
    intro k ids part hids hpart hitem
    have hchoice := choice_mem_part (pick item) hids hpart
    have hpick : (pick item).choice k ids = item := if_pos hitem
    rwa [hpick] at hchoice
  exact List.pairwise_iff_getElem.mp hparts i j (by omega) (by omega) hij
    (hmem (List.getElem?_eq_getElem hi) (List.getElem?_eq_getElem _) hitem)
    (hmem (List.getElem?_eq_getElem hj) (List.getElem?_eq_getElem _) hother)

/-- Every draw is fair exactly when no exercise is listed under two lessons. -/
theorem every_draw_fair_iff :
    (∀ rng, FairDraw exercisesByLesson (compose exercisesByLesson rng)) ↔
      exercisesByLesson.Pairwise List.Disjoint := by
  constructor
  · intro h
    refine disjoint_of_once fun rng => ?_
    obtain ⟨parts, hparts, hfair⟩ := h rng
    rw [hparts]
    exact hfair.once
  · intro h rng
    exact ⟨composeByLesson exercisesByLesson rng, rfl, fair_of_disjoint h rng⟩

/-- One exercise under both lessons of a star is asked twice. -/
theorem shared_exercise_asked_twice :
    ¬ FairDraw [["a"], ["a", "b"]] (compose [["a"], ["a", "b"]] (pick "a")) := by
  rintro ⟨parts, hparts, hfair⟩
  have hpaper : compose [["a"], ["a", "b"]] (pick "a") = ["a", "a", "b"] := by decide +kernel
  have honce := hfair.once
  rw [← hparts, hpaper] at honce
  exact absurd honce (by decide)

end

end Stoa.Practice
