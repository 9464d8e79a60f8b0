import Stoa.Verification.Mastery.Lightings

/-! # Prerequisites that are missing -/

namespace Stoa.Mastery

/-! ## Items where they come first -/

theorem fromKeys_concat (items : List String) (item : String) :
    fromKeys (items ++ [item]) =
      if item ∈ fromKeys items then fromKeys items else fromKeys items ++ [item] := by
  simp only [fromKeys, List.map_append, List.map_singleton, OrderedDict.ofPairs_concat,
    OrderedDict.keys_insert]
  congr

theorem mem_fromKeys {items : List String} {item : String} :
    item ∈ fromKeys items ↔ item ∈ items := by
  induction items using List.reverseRecOn with
  | nil => rfl
  | append_singleton items last ih =>
      rw [fromKeys_concat, List.mem_append, List.mem_singleton]
      split
      · rename_i hlast
        rw [ih]
        constructor
        · exact Or.inl
        · rintro (h | rfl)
          · exact h
          · exact ih.mp hlast
      · rw [List.mem_append, ih, List.mem_singleton]

theorem fromKeys_sublist (items : List String) : (fromKeys items).Sublist items := by
  induction items using List.reverseRecOn with
  | nil => exact List.Sublist.slnil
  | append_singleton items last ih =>
      rw [fromKeys_concat]
      split
      · exact ih.trans (List.sublist_append_left _ _)
      · exact ih.append (List.Sublist.refl _)

theorem nodup_fromKeys (items : List String) : (fromKeys items).Nodup :=
  (OrderedDict.ofPairs (items.map fun item => (item, ()))).nodup

/-! ## What is missing -/

section

variable {content : Content} {e : Evidence} {unit : CatalogUnit} {unitId item : String} {m : UnitMastery}

theorem mem_unlitPrerequisiteIds {lit learnable : List String} :
    item ∈ unlitPrerequisiteIds unit unitId lit learnable ↔
      item ∈ unit.prerequisiteUnitIds.getD [] ∧ item ≠ "" ∧ item ≠ unitId ∧ item ∈ learnable ∧ item ∉ lit := by
  unfold unlitPrerequisiteIds
  cases unit.prerequisiteUnitIds with
  | none => simp
  | some stated => simp [mem_fromKeys]

theorem mem_litIds : item ∈ litIds content e ↔ ∃ m, (litByQuiz content e).get? item = some m ∧ m.state = .lit := by
  simp [litIds, OrderedDict.get?_eq_some]

theorem mem_learnableIds :
    item ∈ learnableIds content e ↔ ∃ m, (litByQuiz content e).get? item = some m ∧ 0 < m.lessonCount := by
  simp [learnableIds, OrderedDict.get?_eq_some]

/-- A unit's state is its judgement with the prerequisites that are missing. -/
theorem unitStates_eq_some (hids : (content.units.map CatalogUnit.id).Nodup) (hunit : unit ∈ content.units)
    (h : (unitStates content e).get? unit.id = some m) :
    ∃ judged, (litByQuiz content e).get? unit.id = some judged ∧ m = withPrerequisites content e unit judged := by
  obtain ⟨other, hother, hpair⟩ :=
    List.mem_filterMap.mp (OrderedDict.mem_of_mem_ofPairs (OrderedDict.get?_eq_some.mp h))
  obtain ⟨judged, hjudged, heq⟩ := Option.map_eq_some_iff.mp hpair
  obtain ⟨hid, rfl⟩ := Prod.mk.inj heq
  have hsame : other = unit := List.inj_on_of_nodup_map hids hother hunit hid
  subst hsame
  exact ⟨judged, hjudged, rfl⟩

theorem withPrerequisites_state (judged : UnitMastery) : (withPrerequisites content e unit judged).state = judged.state := by
  unfold withPrerequisites
  split <;> rfl

theorem withPrerequisites_lessonCount (judged : UnitMastery) :
    (withPrerequisites content e unit judged).lessonCount = judged.lessonCount := by
  unfold withPrerequisites
  split <;> rfl

/-- Every unit that is judged has a state. -/
theorem exists_unitStates {judged : UnitMastery} (h : (litByQuiz content e).get? item = some judged) :
    ∃ unit ∈ content.units, unit.id = item ∧ ∃ m, (unitStates content e).get? item = some m := by
  unfold litByQuiz at h
  rw [OrderedDict.get?_mapValues, Option.map_eq_some_iff] at h
  obtain ⟨found, hfound, heq⟩ := h
  obtain ⟨unit, hunit, hpair⟩ := List.mem_map.mp (OrderedDict.mem_of_mem_ofPairs (OrderedDict.get?_eq_some.mp hfound))
  obtain ⟨rfl, -⟩ := Prod.mk.inj hpair
  refine ⟨unit, hunit, rfl, Option.isSome_iff_exists.mp (OrderedDict.isSome_ofPairs (e := (unit.id, ?_)) ?_)⟩
  · exact withPrerequisites content e unit judged
  · refine List.mem_filterMap.mpr ⟨unit, hunit, Option.map_eq_some_iff.mpr ⟨judged, ?_, rfl⟩⟩
    unfold litByQuiz
    rw [OrderedDict.get?_mapValues, hfound, Option.map_some, heq]

/-- Nothing is missing exactly where every other learnable unit that is stated is lit. -/
theorem withPrerequisites_eq_nil {judged : UnitMastery} (hnone : judged.unlitPrerequisiteIds = []) :
    (withPrerequisites content e unit judged).unlitPrerequisiteIds = [] ↔
      (judged.state ≠ .lit → ∀ item ∈ unit.prerequisiteUnitIds.getD [], item ≠ "" → item ≠ unit.id →
        item ∈ learnableIds content e → item ∈ litIds content e) := by
  unfold withPrerequisites
  by_cases hlit : judged.state = .lit
  · rw [if_pos hlit]
    exact iff_of_true hnone fun h => absurd hlit h
  · rw [if_neg hlit, List.eq_nil_iff_forall_not_mem]
    simp only [mem_unlitPrerequisiteIds, not_and, not_not]
    exact ⟨fun h _ item => h item, fun h item => h hlit item⟩

end

end Stoa.Mastery
