import Stoa.Verification.Mastery.Monotone

/-! # Lightings kept, and lightings to celebrate -/

namespace Stoa.Mastery

open List

/-! ## Lit units -/

/-- The unit is lit by the evidence. -/
def Lit (content : Content) (e : Evidence) (unitId : String) : Prop :=
  ∃ m, (unitStates content e).get? unitId = some m ∧ m.state = .lit

section

variable {content : Content} {e e' : Evidence}

theorem Lit.mono (h : e.Within e') {unitId : String} (hlit : Lit content e unitId) :
    Lit content e' unitId := by
  obtain ⟨m, hm, hstate⟩ := hlit
  obtain ⟨m', hm', hgrows⟩ := (unitStates_grow h).get? hm
  exact ⟨m', hm', LearningState.lit_le.mp (hstate ▸ hgrows.state)⟩

theorem litByQuiz_unitId {unitId : String} {m : UnitMastery}
    (h : (litByQuiz content e).get? unitId = some m) : m.unitId = unitId := by
  unfold litByQuiz at h
  rw [OrderedDict.get?_mapValues, Option.map_eq_some_iff] at h
  obtain ⟨judged, hjudged, rfl⟩ := h
  obtain ⟨unit, -, heq⟩ :=
    mem_map.mp (OrderedDict.mem_of_mem_ofPairs (OrderedDict.get?_eq_some.mp hjudged))
  obtain ⟨rfl, rfl⟩ := Prod.mk.inj heq
  split <;> rfl

theorem unitStates_unitId {unitId : String} {m : UnitMastery}
    (h : (unitStates content e).get? unitId = some m) : m.unitId = unitId := by
  obtain ⟨unit, -, hunit⟩ :=
    mem_filterMap.mp (OrderedDict.mem_of_mem_ofPairs (OrderedDict.get?_eq_some.mp h))
  obtain ⟨judged, hjudged, heq⟩ := Option.map_eq_some_iff.mp hunit
  obtain ⟨rfl, rfl⟩ := Prod.mk.inj heq
  have hid := litByQuiz_unitId hjudged
  unfold withPrerequisites
  split <;> exact hid

theorem mem_litUnitIds {unitId : String} :
    unitId ∈ litUnitIds (unitStates content e).values ↔ Lit content e unitId := by
  unfold litUnitIds Lit
  rw [mem_map]
  constructor
  · rintro ⟨m, hm, rfl⟩
    obtain ⟨hvalue, hstate⟩ := mem_filter.mp hm
    obtain ⟨k, hk⟩ := OrderedDict.mem_values.mp hvalue
    obtain rfl := unitStates_unitId hk
    exact ⟨m, hk, of_decide_eq_true hstate⟩
  · rintro ⟨m, hm, hstate⟩
    have hvalue := OrderedDict.mem_values.mpr ⟨unitId, hm⟩
    exact ⟨m, mem_filter.mpr ⟨hvalue, decide_eq_true hstate⟩, unitStates_unitId hm⟩

end

/-! ## Facts -/

/-- Every fact is stored under its own unit. -/
def Keyed (facts : OrderedDict String LitFact) : Prop :=
  ∀ unitId fact, facts.get? unitId = some fact → fact.unitId = unitId

/-- What a unit that was not stored becomes. -/
def freshFact (ledgerOpen : Bool) (now : Instant) (unitId : String) : LitFact where
  unitId := unitId
  litAt := now
  source := if ledgerOpen then .observed else .backfilled

section

variable {stored : OrderedDict String LitFact} {ledgerOpen : Bool} {now : Instant}

/-- What holds of the facts and the new ones among them while the lit units are
gone through. -/
structure Resolved (stored : OrderedDict String LitFact) (ledgerOpen : Bool) (now : Instant)
    (lit : List String) (found : OrderedDict String LitFact × List LitFact) : Prop where
  get? : ∀ unitId, found.1.get? unitId = (stored.get? unitId).or
    (if unitId ∈ lit ∧ unitId ≠ "" then some (freshFact ledgerOpen now unitId) else none)
  fresh : ∀ fact, fact ∈ found.2 ↔ ∃ unitId ∈ lit, unitId ≠ "" ∧ stored.get? unitId = none ∧
    fact = freshFact ledgerOpen now unitId

variable {lit : List String} {found : OrderedDict String LitFact × List LitFact} {unitId : String}

/-- A unit that is blank, or among the facts already, changes nothing. -/
theorem Resolved.skip (h : Resolved stored ledgerOpen now lit found)
    (hskip : unitId = "" ∨ unitId ∈ found.1.keys) :
    Resolved stored ledgerOpen now (lit ++ [unitId]) found := by
  have hseen : unitId = "" ∨ (stored.get? unitId).isSome ∨ unitId ∈ lit := by
    refine hskip.imp_right fun hkey => ?_
    rw [OrderedDict.mem_keys_iff, h.get? unitId, Option.isSome_or, Bool.or_eq_true] at hkey
    refine hkey.imp_right fun hfresh => ?_
    by_contra hlit
    simp [hlit] at hfresh
  refine ⟨fun other => ?_, fun fact => (h.fresh fact).trans ?_⟩
  · rw [h.get? other]
    by_cases hother : other = unitId
    · subst hother
      rcases hseen with rfl | hstored | hlit
      · simp
      · obtain ⟨fact, hfact⟩ := Option.isSome_iff_exists.mp hstored
        rw [hfact, Option.some_or, Option.some_or]
      · simp [hlit]
    · simp [hother]
  · constructor
    · rintro ⟨other, hother, hrest⟩
      exact ⟨other, mem_append_left _ hother, hrest⟩
    · rintro ⟨other, hother, hne, hstored, rfl⟩
      refine ⟨other, ?_, hne, hstored, rfl⟩
      rcases mem_append.mp hother with hother | hother
      · exact hother
      · obtain rfl := mem_singleton.mp hother
        rcases hseen with heq | hsome | hlit
        · exact absurd heq hne
        · rw [hstored] at hsome
          cases hsome
        · exact hlit

/-- A unit that is lit for the first time becomes a fact, and a new one. -/
theorem Resolved.add (h : Resolved stored ledgerOpen now lit found) (hne : unitId ≠ "")
    (hnew : unitId ∉ found.1.keys) :
    Resolved stored ledgerOpen now (lit ++ [unitId])
      (found.1.insert unitId (freshFact ledgerOpen now unitId),
        found.2 ++ [freshFact ledgerOpen now unitId]) := by
  have hnone : found.1.get? unitId = none :=
    Option.not_isSome_iff_eq_none.mp fun hsome => hnew (OrderedDict.mem_keys_iff.mpr hsome)
  have hstored : stored.get? unitId = none := by
    have hget := h.get? unitId
    rw [hnone] at hget
    exact (Option.or_eq_none_iff.mp hget.symm).1
  refine ⟨fun other => ?_, fun fact => ?_⟩
  · rw [OrderedDict.get?_insert]
    by_cases hother : other = unitId
    · subst hother
      simp [hstored, hne]
    · rw [if_neg hother, h.get? other]
      simp [hother]
  · rw [mem_append, h.fresh fact, mem_singleton]
    constructor
    · rintro (⟨other, hother, hrest⟩ | rfl)
      · exact ⟨other, mem_append_left _ hother, hrest⟩
      · exact ⟨unitId, mem_append_right _ (mem_singleton_self _), hne, hstored, rfl⟩
    · rintro ⟨other, hother, hrest⟩
      rcases mem_append.mp hother with hother | hother
      · exact .inl ⟨other, hother, hrest⟩
      · obtain rfl := mem_singleton.mp hother
        exact .inr hrest.2.2

theorem resolveLitFacts_resolved (lit : List String) :
    Resolved stored ledgerOpen now lit (resolveLitFacts lit stored ledgerOpen now) := by
  induction lit using List.reverseRecOn with
  | nil => exact ⟨fun unitId => by simp [resolveLitFacts], fun fact => by simp [resolveLitFacts]⟩
  | append_singleton lit unitId ih =>
      have hstep : resolveLitFacts (lit ++ [unitId]) stored ledgerOpen now =
          if unitId = "" ∨ (resolveLitFacts lit stored ledgerOpen now).1.contains unitId then
            resolveLitFacts lit stored ledgerOpen now
          else ((resolveLitFacts lit stored ledgerOpen now).1.insert unitId
              (freshFact ledgerOpen now unitId),
            (resolveLitFacts lit stored ledgerOpen now).2 ++ [freshFact ledgerOpen now unitId]) := by
        unfold resolveLitFacts
        rw [foldl_append]
        rfl
      rw [hstep]
      split
      · rename_i hskip
        exact ih.skip (hskip.imp_right OrderedDict.contains_iff.mp)
      · rename_i hadd
        rw [not_or] at hadd
        exact ih.add hadd.1 fun hkey => hadd.2 (OrderedDict.contains_iff.mpr hkey)

end

end Stoa.Mastery
