import Stoa.Model.Mastery
import Mathlib.Algebra.Order.Field.Basic
import Mathlib.Algebra.Order.Field.Rat
import Mathlib.Data.List.Basic

/-! # Doing more never takes mastery away -/

namespace Stoa.Mastery

open List

/-- Every finished lesson, right answer and passed quiz is there as well. -/
structure Evidence.Within (e e' : Evidence) : Prop where
  completed : e.completedLessonIds ⊆ e'.completedLessonIds
  answered : e.answeredRight ⊆ e'.answeredRight
  passed : e.starQuizPassed ⊆ e'.starQuizPassed

theorem Evidence.Within.trans {e e' e'' : Evidence} (h : e.Within e') (h' : e'.Within e'') :
    e.Within e'' :=
  ⟨h.completed.trans h'.completed, h.answered.trans h'.answered, h.passed.trans h'.passed⟩

theorem LearningState.le_iff {a b : LearningState} : a ≤ b ↔ a.rank ≤ b.rank := Iff.rfl

theorem LearningState.lit_le {a : LearningState} : lit ≤ a ↔ a = lit := by
  cases a <;> simp [LearningState.le_iff, LearningState.rank]

theorem LearningState.le_lit (a : LearningState) : a ≤ lit := by
  cases a <;> decide

/-- What more evidence does to a unit. -/
structure UnitMastery.Grows (m m' : UnitMastery) : Prop where
  unitId : m.unitId = m'.unitId
  state : m.state ≤ m'.state
  progress : m.progress ≤ m'.progress
  unmet : m'.unmetExercises ≤ m.unmetExercises
  lessonCount : m.lessonCount = m'.lessonCount
  lessonsDone : m.lessonsDone ≤ m'.lessonsDone
  unlit : m'.unlitPrerequisiteIds <+ m.unlitPrerequisiteIds

/-! ## One unit -/

section

variable {completed completed' answered answered' : Finset String}

theorem done_mono (h : completed ⊆ completed') (lessons : List Lesson) :
    (lessons.filter fun lesson => lesson.id ∈ completed).length ≤
      (lessons.filter fun lesson => lesson.id ∈ completed').length := by
  refine (List.monotone_filter_right lessons fun lesson hdone => ?_).length_le
  exact decide_eq_true (h (of_decide_eq_true hdone))

theorem unmet_mono (h : answered ⊆ answered') (ids : List String) :
    (ids.filter fun item => item ∉ answered') <+ ids.filter fun item => item ∉ answered := by
  refine List.monotone_filter_right ids fun item hunmet => ?_
  exact decide_eq_true fun hmem => of_decide_eq_true hunmet (h hmem)

theorem judgeUnit_grows (hcompleted : completed ⊆ completed') (hanswered : answered ⊆ answered')
    (unit : CatalogUnit) (lessons : List Lesson)
    (exercises : OrderedDict String (List String)) :
    (judgeUnit unit lessons exercises completed answered).Grows
      (judgeUnit unit lessons exercises completed' answered') := by
  have hdone := done_mono hcompleted (coreLessons lessons)
  have hcount := List.length_filter_le (fun lesson : Lesson => decide (lesson.id ∈ completed'))
    (coreLessons lessons)
  have hunmet := unmet_mono hanswered (lessonExerciseIds (coreLessons lessons) exercises)
  refine ⟨rfl, ?_, ?_, hunmet.length_le, rfl, hdone, List.Sublist.refl _⟩
  · simp only [judgeUnit]
    split
    · rename_i hlit
      obtain ⟨⟨hpos, hall⟩, hmet⟩ := hlit
      have hmet' := List.sublist_nil.mp (hmet ▸ hunmet)
      rw [if_pos ⟨⟨hpos, by omega⟩, hmet'⟩]
      exact le_refl 2
    · split
      · rename_i hbegun
        have hbegun' := hbegun.imp (fun h => h.trans_le hdone) fun h => hunmet.length_le.trans_lt h
        rw [if_pos hbegun']
        split
        · exact Nat.le_succ 1
        · exact le_refl 1
      · exact Nat.zero_le _
  · simp only [judgeUnit]
    split
    · exact le_refl 0
    · exact div_le_div_of_nonneg_right (Nat.cast_le.mpr hdone) (Nat.cast_nonneg _)

end

/-! ## Every unit -/

section

variable {content : Content} {e e' : Evidence}

theorem judgedUnits_grow (h : e.Within e') :
    OrderedDict.Rel UnitMastery.Grows (judgedUnits content e) (judgedUnits content e') := by
  refine OrderedDict.Rel.ofPairs ?_
  rw [forall₂_map_left_iff, forall₂_map_right_iff, forall₂_same]
  exact fun unit _ => ⟨rfl, judgeUnit_grows h.completed h.answered unit _ _⟩

theorem litByQuiz_grow (h : e.Within e') :
    OrderedDict.Rel UnitMastery.Grows (litByQuiz content e) (litByQuiz content e') := by
  refine (judgedUnits_grow h).mapValues fun unitId m m' hm => ?_
  by_cases hpassed : unitId ∈ e'.starQuizPassed
  · rw [if_pos hpassed]
    split <;> exact { hm with state := LearningState.le_lit _ }
  · rw [if_neg hpassed, if_neg fun hmem => hpassed (h.passed hmem)]
    exact hm

/-- Before the prerequisites are read no unit names one. -/
theorem litByQuiz_unlit {unitId : String} {m : UnitMastery}
    (h : (litByQuiz content e).get? unitId = some m) : m.unlitPrerequisiteIds = [] := by
  unfold litByQuiz judgedUnits at h
  rw [OrderedDict.get?_mapValues, OrderedDict.get?_ofPairs_map, Option.map_map,
    Option.map_eq_some_iff] at h
  obtain ⟨unit, -, rfl⟩ := h
  dsimp only [Function.comp]
  split <;> rfl

theorem litByQuiz_passed {unitId : String} {m : UnitMastery} (hpassed : unitId ∈ e.starQuizPassed)
    (h : (litByQuiz content e).get? unitId = some m) : m.state = .lit := by
  unfold litByQuiz at h
  rw [OrderedDict.get?_mapValues, Option.map_eq_some_iff] at h
  obtain ⟨judged, -, rfl⟩ := h
  rw [if_pos hpassed]

/-- The ids of the dictionary whose state meets a condition. -/
theorem ids_subset {R : UnitMastery → UnitMastery → Prop} {d d' : OrderedDict String UnitMastery}
    (h : OrderedDict.Rel R d d') {p : UnitMastery → Bool} (hp : ∀ m m', R m m' → p m → p m') :
    (d.entries.filter fun a => p a.2).map Prod.fst ⊆
      (d'.entries.filter fun a => p a.2).map Prod.fst := by
  intro id hid
  obtain ⟨a, ha, rfl⟩ := mem_map.mp hid
  obtain ⟨ha, hpa⟩ := mem_filter.mp ha
  obtain ⟨b, hb, hkey, hR⟩ := h.mem_left ha
  exact mem_map.mpr ⟨b, mem_filter.mpr ⟨hb, hp _ _ hR hpa⟩, hkey.symm⟩

theorem lit_subset (h : e.Within e') : litIds content e ⊆ litIds content e' := by
  refine ids_subset (litByQuiz_grow h) (p := fun m => m.state = .lit) fun m m' hm hlit => ?_
  have hle := of_decide_eq_true hlit ▸ hm.state
  exact decide_eq_true (LearningState.lit_le.mp hle)

theorem learnable_subset (h : e.Within e') : learnableIds content e' ⊆ learnableIds content e := by
  intro id hid
  obtain ⟨b, hb, rfl⟩ := mem_map.mp hid
  obtain ⟨hb, hcount⟩ := mem_filter.mp hb
  obtain ⟨a, ha, hkey, hm⟩ := (litByQuiz_grow h).mem_right hb
  exact mem_map.mpr ⟨a, mem_filter.mpr ⟨ha, hm.lessonCount ▸ hcount⟩, hkey⟩

theorem unlitPrerequisiteIds_sublist (unit : CatalogUnit) {unitId : String}
    {lit lit' learnable learnable' : List String} (hlit : lit ⊆ lit')
    (hlearnable : learnable' ⊆ learnable) :
    unlitPrerequisiteIds unit unitId lit' learnable' <+
      unlitPrerequisiteIds unit unitId lit learnable := by
  unfold unlitPrerequisiteIds
  cases unit.prerequisiteUnitIds with
  | none => exact List.Sublist.refl _
  | some stated =>
      refine List.monotone_filter_right _ fun item hitem => ?_
      obtain ⟨hne, hself, hlearn, hunlit⟩ := of_decide_eq_true hitem
      exact decide_eq_true ⟨hne, hself, hlearnable hlearn, fun hmem => hunlit (hlit hmem)⟩

theorem withPrerequisites_grows (h : e.Within e') (unit : CatalogUnit) {m m' : UnitMastery}
    (hm : m.Grows m') (hnone' : m'.unlitPrerequisiteIds = []) :
    (withPrerequisites content e unit m).Grows (withPrerequisites content e' unit m') := by
  have hlists : unlitPrerequisiteIds unit unit.id (litIds content e') (learnableIds content e') <+
      unlitPrerequisiteIds unit unit.id (litIds content e) (learnableIds content e) :=
    unlitPrerequisiteIds_sublist unit (lit_subset h) (learnable_subset h)
  unfold withPrerequisites
  by_cases hlit' : m'.state = .lit
  · rw [if_pos hlit']
    split
    · exact hm
    · exact { hm with unlit := hnone' ▸ List.nil_sublist _ }
  · have hlit : m.state ≠ .lit := fun hlit => hlit' (LearningState.lit_le.mp (hlit ▸ hm.state))
    rw [if_neg hlit', if_neg hlit]
    exact { hm with unlit := hlists }

theorem unitStates_grow (h : e.Within e') :
    OrderedDict.Rel UnitMastery.Grows (unitStates content e) (unitStates content e') := by
  have hjudged : OrderedDict.Rel UnitMastery.Grows (litByQuiz content e) (litByQuiz content e') :=
    litByQuiz_grow h
  refine OrderedDict.Rel.ofPairs ?_
  refine rel_filterMap (R := Eq) (fun unit _ heq => ?_) (forall₂_same.mpr fun _ _ => rfl)
  subst heq
  cases hfound : (litByQuiz content e).get? unit.id with
  | none =>
      rw [hjudged.get?_none hfound]
      exact .none
  | some m =>
      obtain ⟨m', hfound', hm⟩ := hjudged.get? hfound
      rw [hfound']
      exact .some ⟨rfl, withPrerequisites_grows h unit hm (litByQuiz_unlit hfound')⟩

/-- The quiz lights the star, whatever its lessons say. -/
theorem unitStates_passed {unitId : String} {m : UnitMastery} (hpassed : unitId ∈ e.starQuizPassed)
    (h : (unitStates content e).get? unitId = some m) : m.state = .lit := by
  obtain ⟨unit, -, hunit⟩ := mem_filterMap.mp
    (OrderedDict.mem_of_mem_ofPairs (OrderedDict.get?_eq_some.mp h))
  obtain ⟨judged, hjudged, heq⟩ := Option.map_eq_some_iff.mp hunit
  obtain ⟨rfl, rfl⟩ := Prod.mk.inj heq
  have hlit := litByQuiz_passed hpassed hjudged
  unfold withPrerequisites
  rw [if_pos hlit]
  exact hlit

/-! ## Skills -/

theorem judgeSkills_lit {unitId : String} {skillIds : List String}
    {exercises : OrderedDict String (List String)} {answered answered' : Finset String}
    (h : answered ⊆ answered') :
    Forall₂ (fun a b : SkillMastery => a.skillId = b.skillId ∧ (a.lit → b.lit))
      (judgeSkills unitId skillIds exercises answered)
      (judgeSkills unitId skillIds exercises answered') := by
  unfold judgeSkills
  dsimp only
  rw [forall₂_map_left_iff, forall₂_map_right_iff, forall₂_same]
  refine fun skillId _ => ⟨rfl, fun hlit => ?_⟩
  obtain ⟨entry, hentry, hskill⟩ := mem_flatMap.mp (of_decide_eq_true hlit)
  obtain ⟨hentry, hright⟩ := mem_filter.mp hentry
  refine decide_eq_true (mem_flatMap.mpr ⟨entry, mem_filter.mpr ⟨hentry, ?_⟩, hskill⟩)
  exact decide_eq_true (h (of_decide_eq_true hright))

theorem skillStates_grow (h : e.Within e') :
    OrderedDict.Rel (fun a b : SkillMastery => a.lit → b.lit) (skillStates content e)
      (skillStates content e') := by
  refine OrderedDict.Rel.ofPairs ?_
  refine rel_flatMap (R := Eq) (forall₂_same.mpr fun _ _ => rfl) fun unit _ heq => ?_
  subst heq
  rw [forall₂_map_left_iff, forall₂_map_right_iff]
  exact (judgeSkills_lit h.answered).imp fun a b hab => ⟨hab.1, hab.2⟩

end

/-- With more finished lessons, right answers and passed quizzes, no unit and no
skill is worse off. -/
theorem mastery_monotone (content : Content) (e e' : Evidence) (h : e.Within e') :
    (unitStates content e).keys = (unitStates content e').keys ∧
    (∀ unitId m, (unitStates content e).get? unitId = some m →
      ∃ m', (unitStates content e').get? unitId = some m' ∧
        m.state ≤ m'.state ∧ m.progress ≤ m'.progress ∧ m.lessonsDone ≤ m'.lessonsDone ∧
        m'.unmetExercises ≤ m.unmetExercises ∧
        m'.unlitPrerequisiteIds <+ m.unlitPrerequisiteIds ∧
        (m.state ≠ .lit → m.unlitPrerequisiteIds = [] → m'.unlitPrerequisiteIds = [])) ∧
    (∀ unitId m, unitId ∈ e.starQuizPassed → (unitStates content e).get? unitId = some m →
      m.state = .lit) ∧
    (∀ skillId s, (skillStates content e).get? skillId = some s → s.lit →
      ∃ s', (skillStates content e').get? skillId = some s' ∧ s'.lit) := by
  refine ⟨(unitStates_grow h).keys_eq, fun unitId m hm => ?_, fun _ _ => unitStates_passed,
    fun skillId s hs hlit => ?_⟩
  · obtain ⟨m', hm', hgrows⟩ := (unitStates_grow h).get? hm
    refine ⟨m', hm', hgrows.state, hgrows.progress, hgrows.lessonsDone, hgrows.unmet,
      hgrows.unlit, fun _ hnone => ?_⟩
    exact List.sublist_nil.mp (hnone ▸ hgrows.unlit)
  · obtain ⟨s', hs', hkept⟩ := (skillStates_grow h).get? hs
    exact ⟨s', hs', hkept hlit⟩

/-- Two units, the second after the first, one lesson and one exercise each. -/
def twoUnits : Content where
  units := [⟨"a", "t", "s", "A", 1, none, none⟩, ⟨"b", "t", "s", "B", 2, some ["a"], none⟩]
  lessons := [⟨"la", "a", "LA", false, 1, [], 1⟩, ⟨"lb", "b", "LB", false, 1, ["p"], 1⟩]
  exercises lessonId := if lessonId = "la" then [⟨"xa", ["sa"], "p"⟩] else [⟨"xb", ["sb"], ""⟩]
  skillIdsByUnit unitId := if unitId = "a" then ["sa"] else ["sb"]

theorem mastery_monotone_two_units :
    Evidence.Within ⟨∅, ∅, ∅⟩ ⟨{"la"}, {"xa"}, {"b"}⟩ ∧
    (unitStates twoUnits ⟨∅, ∅, ∅⟩).keys = (unitStates twoUnits ⟨{"la"}, {"xa"}, {"b"}⟩).keys :=
  ⟨⟨by simp, by simp, by simp⟩,
    (mastery_monotone twoUnits ⟨∅, ∅, ∅⟩ ⟨{"la"}, {"xa"}, {"b"}⟩ ⟨by simp, by simp, by simp⟩).1⟩

end Stoa.Mastery
