import Mathlib.Analysis.SpecialFunctions.Pow.Real
import Stoa.Model.ReviewScheduler

/-! # The scheduler over the real numbers

With exact arithmetic a card stays inside the scheduler's bounds, a lapse never
strengthens it, and a better recall never leaves it weaker. -/

namespace Stoa.Practice

/-! ## Exact arithmetic -/

noncomputable section

open Classical in
/-- Powers and exponentials are the real functions. -/
instance exactArithmetic : Floating ℝ where
  ofInt n := n
  le x y := decide (x ≤ y)
  exp := Real.exp
  pow := fun x y => x ^ y
  round x :=
    if Int.fract x < 1 / 2 then ⌊x⌋
    else if 1 / 2 < Int.fract x then ⌊x⌋ + 1
    else if Even ⌊x⌋ then ⌊x⌋ else ⌊x⌋ + 1
  decimal x := ⌊x * 1000000 + 1 / 2⌋ / 1000000

end

theorem fmax_eq (x y : ℝ) : fmax x y = max x y := by
  simp only [fmax, Floating.le, decide_eq_true_eq]
  split
  · exact (max_eq_left ‹_›).symm
  · exact (max_eq_right (not_le.mp ‹_›).le).symm

theorem fmin_eq (x y : ℝ) : fmin x y = min x y := by
  simp only [fmin, Floating.le, decide_eq_true_eq]
  split
  · exact (min_eq_left ‹_›).symm
  · exact (min_eq_right (not_le.mp ‹_›).le).symm

theorem clamp_eq (x low high : ℝ) : clamp x low high = min (max x low) high := by
  rw [clamp, fmax_eq, fmin_eq]

/-! ## Difficulty -/

theorem clamp_bounds (x : ℝ) : 1 ≤ clamp x (MIN_DIFFICULTY : ℝ) MAX_DIFFICULTY ∧
    clamp x (MIN_DIFFICULTY : ℝ) MAX_DIFFICULTY ≤ 10 := by
  have hlow : (MIN_DIFFICULTY : ℝ) = 1 := by
    change (1.0 : ℝ) = 1
    norm_num
  have hhigh : (MAX_DIFFICULTY : ℝ) = 10 := by
    change (10.0 : ℝ) = 10
    norm_num
  rw [clamp_eq, hlow, hhigh]
  exact ⟨le_min (le_max_right _ _) (by norm_num), min_le_right _ _⟩

theorem clamp_mono {x y low high : ℝ} (h : x ≤ y) : clamp x low high ≤ clamp y low high := by
  rw [clamp_eq, clamp_eq]
  exact min_le_min_right _ (max_le_max_right _ h)

/-- What the next difficulty is clamped from. -/
theorem nextDifficulty_eq (d : ℝ) (grade : Grade) :
    nextDifficulty d grade = clamp (0.0046 * initialDifficulty .easy +
      (1 - 0.0046) * (d + -1.4604 * (grade.value - 3) * (10 - d) / 9))
        MIN_DIFFICULTY MAX_DIFFICULTY := by
  have hcast : nextDifficulty d grade = clamp (0.0046 * initialDifficulty .easy +
      (((1 : ℤ) : ℝ) - 0.0046) * (d + -1.4604 * ((grade.value - Grade.good.value : ℤ) : ℝ) *
        (((10 : ℤ) : ℝ) - d) / ((9 : ℤ) : ℝ))) MIN_DIFFICULTY MAX_DIFFICULTY := rfl
  rw [hcast]
  simp [Grade.value]

/-- A better grade leaves the exercise no harder. -/
theorem nextDifficulty_anti {d : ℝ} (hd : d ≤ 10) {grade grade' : Grade} (h : grade.value ≤ grade'.value) :
    nextDifficulty d grade' ≤ nextDifficulty d grade := by
  rw [nextDifficulty_eq, nextDifficulty_eq]
  refine clamp_mono ?_
  have hvalue : (grade.value : ℝ) ≤ grade'.value := by exact_mod_cast h
  have hproduct : 0 ≤ ((grade'.value : ℝ) - grade.value) * (10 - d) :=
    mul_nonneg (by linarith) (by linarith)
  nlinarith

theorem nextDifficulty_bounds (d : ℝ) (grade : Grade) :
    1 ≤ nextDifficulty d grade ∧ nextDifficulty d grade ≤ 10 := by
  rw [nextDifficulty_eq]
  exact clamp_bounds _

/-! ## Recall -/

theorem retrievability_bounds (state : CardState ℝ) (now : Instant) (hstable : 0.01 ≤ state.stability) :
    retrievability state now ≤ 1 := by
  unfold retrievability
  split
  · change (1.0 : ℝ) ≤ 1
    norm_num
  · rename_i last _
    change (((1 : ℤ) : ℝ) + ((19 : ℤ) : ℝ) / ((81 : ℤ) : ℝ) * fmax (elapsedDays last now) (0.0 : ℝ) /
      fmax state.stability (MIN_STABILITY : ℝ)) ^ (-0.5 : ℝ) ≤ 1
    rw [fmax_eq, fmax_eq]
    refine Real.rpow_le_one_of_one_le_of_nonpos ?_ (by norm_num)
    have helapsed : (0 : ℝ) ≤ max (elapsedDays last now) 0.0 := le_max_of_le_right (by norm_num)
    have hstability : (0 : ℝ) < max state.stability MIN_STABILITY :=
      lt_of_lt_of_le (by norm_num) (hstable.trans (le_max_left _ _))
    have hquotient : (0 : ℝ) ≤ ((19 : ℤ) : ℝ) / ((81 : ℤ) : ℝ) * max (elapsedDays last now) 0.0 /
        max state.stability MIN_STABILITY :=
      div_nonneg (mul_nonneg (by norm_num) helapsed) hstability.le
    push_cast at hquotient ⊢
    linarith

/-! ## Stability -/

theorem le_fmax (x : ℝ) : (0.01 : ℝ) ≤ fmax x MIN_STABILITY := by
  rw [fmax_eq]
  exact le_max_right _ _

/-- What a recall multiplies the stability by, for each grade. -/
def bonus : Grade → ℝ
  | .hard => 0.2315
  | .easy => 2.9898
  | _ => 1

/-- What the grades share of the growth after a recall. -/
noncomputable def rehearsal (stability retention : ℝ) : ℝ :=
  Real.exp 1.54575 * stability ^ (-0.1192 : ℝ) * (Real.exp (1.01925 * (1 - retention)) - 1)

theorem rehearsal_nonneg {stability retention : ℝ} (hs : 0.01 ≤ stability) (hr : retention ≤ 1) :
    0 ≤ rehearsal stability retention := by
  have hpower : 0 ≤ stability ^ (-0.1192 : ℝ) := Real.rpow_nonneg (by linarith) _
  have hexp : 1 ≤ Real.exp (1.01925 * (1 - retention)) :=
    Real.one_le_exp (mul_nonneg (by norm_num) (by linarith))
  exact mul_nonneg (mul_nonneg (Real.exp_pos _).le hpower) (by linarith)

theorem stabilityAfterRecall_eq (s d r : ℝ) (grade : Grade) :
    stabilityAfterRecall s d r grade =
      max (s * (1 + rehearsal s r * ((11 - d) * bonus grade))) 0.01 := by
  have hcast : stabilityAfterRecall s d r grade = fmax (s * (((1 : ℤ) : ℝ) +
      Real.exp 1.54575 * (((11 : ℤ) : ℝ) - d) * s ^ (-0.1192 : ℝ) *
        (Real.exp (1.01925 * (((1 : ℤ) : ℝ) - r)) - ((1 : ℤ) : ℝ)) *
        (if grade = .hard then 0.2315 else 1.0) * (if grade = .easy then 2.9898 else 1.0)))
      (0.01 : ℝ) := rfl
  have hgrowth : ∀ e p x : ℝ, e * (11 - d) * p * (x - 1) * (if grade = .hard then 0.2315 else 1.0) *
      (if grade = .easy then 2.9898 else 1.0) = e * p * (x - 1) * ((11 - d) * bonus grade) := by
    intro e p x
    cases grade <;> simp only [bonus, reduceCtorEq, if_true, if_false] <;> norm_num <;> ring
  rw [hcast, fmax_eq, rehearsal, ← hgrowth]
  push_cast
  rfl

theorem stabilitySameDay_eq (s : ℝ) (grade : Grade) :
    stabilitySameDay s grade =
      max (s * Real.exp (0.51655 * ((grade.value : ℝ) - 3 + 0.6621))) 0.01 := by
  have hcast : stabilitySameDay s grade = fmax (s * Real.exp (0.51655 *
      (((grade.value - 3 : ℤ) : ℝ) + 0.6621))) (0.01 : ℝ) := rfl
  rw [hcast, fmax_eq]
  push_cast
  rfl

theorem stabilityAfterLapse_le {s d r : ℝ} (hs : 0.01 ≤ s) : stabilityAfterLapse s d r ≤ s := by
  unfold stabilityAfterLapse
  rw [fmax_eq, fmin_eq]
  exact max_le (min_le_right _ _) hs

theorem le_stabilityAfterRecall {s d r : ℝ} (hs : 0.01 ≤ s) (hd : d ≤ 10) (hr : r ≤ 1) (grade : Grade) :
    s ≤ stabilityAfterRecall s d r grade := by
  rw [stabilityAfterRecall_eq]
  have hbonus : 0 ≤ bonus grade := by cases grade <;> norm_num [bonus]
  have hgrowth : 0 ≤ rehearsal s r * ((11 - d) * bonus grade) :=
    mul_nonneg (rehearsal_nonneg hs hr) (mul_nonneg (by linarith) hbonus)
  have hproduct : 0 ≤ s * (rehearsal s r * ((11 - d) * bonus grade)) := mul_nonneg (by linarith) hgrowth
  refine le_max_of_le_left ?_
  linarith

theorem bonus_mono {grade grade' : Grade} (hrecalled : grade ≠ .again) (h : grade.value ≤ grade'.value) :
    bonus grade ≤ bonus grade' := by
  cases grade <;> cases grade' <;> simp_all [bonus, Grade.value] <;> norm_num

theorem stabilityAfterRecall_mono {s d d' r : ℝ} (hs : 0.01 ≤ s) (hd' : d' ≤ d) (hd : d ≤ 10) (hr : r ≤ 1)
    {grade grade' : Grade} (hrecalled : grade ≠ .again) (h : grade.value ≤ grade'.value) :
    stabilityAfterRecall s d r grade ≤ stabilityAfterRecall s d' r grade' := by
  rw [stabilityAfterRecall_eq, stabilityAfterRecall_eq]
  have hbonus : 0 ≤ bonus grade := by cases grade <;> norm_num [bonus]
  have hfactor : (11 - d) * bonus grade ≤ (11 - d') * bonus grade' :=
    mul_le_mul (by linarith) (bonus_mono hrecalled h) hbonus (by linarith)
  have hgrowth := mul_le_mul_of_nonneg_left hfactor (rehearsal_nonneg hs hr)
  have hstable := mul_le_mul_of_nonneg_left hgrowth (by linarith : (0 : ℝ) ≤ s)
  refine max_le_max_right _ ?_
  linarith

theorem stabilitySameDay_mono {s : ℝ} (hs : 0.01 ≤ s) {grade grade' : Grade}
    (h : grade.value ≤ grade'.value) : stabilitySameDay s grade ≤ stabilitySameDay s grade' := by
  rw [stabilitySameDay_eq, stabilitySameDay_eq]
  have hvalue : (grade.value : ℝ) ≤ grade'.value := by exact_mod_cast h
  have hexp : Real.exp (0.51655 * ((grade.value : ℝ) - 3 + 0.6621)) ≤
      Real.exp (0.51655 * ((grade'.value : ℝ) - 3 + 0.6621)) :=
    Real.exp_le_exp.mpr (by linarith)
  exact max_le_max_right _ (mul_le_mul_of_nonneg_left hexp (by linarith))

theorem stabilitySameDay_again_le {s : ℝ} (hs : 0.01 ≤ s) : stabilitySameDay s .again ≤ s := by
  rw [stabilitySameDay_eq]
  have hexp : Real.exp (0.51655 * ((Grade.again.value : ℝ) - 3 + 0.6621)) ≤ 1 :=
    Real.exp_le_one_iff.mpr (by norm_num [Grade.value])
  refine max_le ?_ hs
  have hproduct := mul_le_mul_of_nonneg_left hexp (by linarith : (0 : ℝ) ≤ s)
  linarith

theorem le_stabilitySameDay {s : ℝ} (hs : 0.01 ≤ s) {grade : Grade} (h : Grade.good.value ≤ grade.value) :
    s ≤ stabilitySameDay s grade := by
  rw [stabilitySameDay_eq]
  have hvalue : (3 : ℝ) ≤ grade.value := by exact_mod_cast h
  have hexp : 1 ≤ Real.exp (0.51655 * ((grade.value : ℝ) - 3 + 0.6621)) :=
    Real.one_le_exp (by linarith)
  have hproduct := mul_le_mul_of_nonneg_left hexp (by linarith : (0 : ℝ) ≤ s)
  refine le_max_of_le_left ?_
  linarith

/-! ## One review -/

section

variable {state : CardState ℝ} {grade grade' : Grade} {now last : Instant}

theorem nextMemory_difficulty (state : CardState ℝ) (grade : Grade) (now : Instant) :
    1 ≤ (nextMemory state grade now).2 ∧ (nextMemory state grade now).2 ≤ 10 := by
  unfold nextMemory
  split
  · exact clamp_bounds _
  · exact nextDifficulty_bounds _ _

theorem le_nextMemory_stability (state : CardState ℝ) (grade : Grade) (now : Instant) :
    0.01 ≤ (nextMemory state grade now).1 := by
  unfold nextMemory
  split
  · exact le_fmax _
  · dsimp only
    split
    · exact le_fmax _
    · split <;> exact le_fmax _

theorem again_le (hreviewed : state.lastReviewedAt = some last) (hs : 0.01 ≤ state.stability) :
    (nextMemory state .again now).1 ≤ state.stability := by
  simp only [nextMemory, hreviewed, if_true]
  split
  · exact stabilitySameDay_again_le hs
  · exact stabilityAfterLapse_le hs

theorem le_recalled (hreviewed : state.lastReviewedAt = some last) (hs : 0.01 ≤ state.stability)
    (hgrade : Grade.good.value ≤ grade.value) : state.stability ≤ (nextMemory state grade now).1 := by
  have hrecalled : grade ≠ .again := by
    rintro rfl
    exact absurd hgrade (by decide)
  simp only [nextMemory, hreviewed, hrecalled, if_false]
  split
  · exact le_stabilitySameDay hs hgrade
  · exact le_stabilityAfterRecall hs (nextDifficulty_bounds _ _).2 (retrievability_bounds state now hs) _

theorem recalled_mono (hreviewed : state.lastReviewedAt = some last) (hs : 0.01 ≤ state.stability)
    (hd : state.difficulty ≤ 10) (hrecalled : grade ≠ .again) (h : grade.value ≤ grade'.value) :
    (nextMemory state grade now).1 ≤ (nextMemory state grade' now).1 := by
  have hrecalled' : grade' ≠ .again := by
    rintro rfl
    cases grade <;> simp_all [Grade.value]
  simp only [nextMemory, hreviewed, hrecalled, hrecalled', if_false]
  split
  · exact stabilitySameDay_mono hs h
  · exact stabilityAfterRecall_mono hs (nextDifficulty_anti hd h) (nextDifficulty_bounds _ _).2
      (retrievability_bounds state now hs) hrecalled h

end

/-! ## Every card -/

/-- The cards that come of a new card by so many reviews, at any times and for any
requested retention. -/
inductive Reached : CardState ℝ → ℕ → Prop where
  | new (now : Instant) : Reached (newCard now) 0
  | reviewed (state : CardState ℝ) (n : ℕ) (retention : ℝ) (grade : Grade) (now : Instant)
      (positive : 0 < retention) (below_one : retention < 1) (before : Reached state n) :
      Reached (reviewWith retention state grade now) (n + 1)

/-- What holds of every card. -/
structure WithinBounds (state : CardState ℝ) (n : ℕ) : Prop where
  difficulty : 1 ≤ state.difficulty ∧ state.difficulty ≤ 10
  stability : 0.01 ≤ state.stability
  reps : state.reps = n
  lapses : state.lapses ≤ state.reps
  lapsed : 0 < state.lapses → state.lapses < state.reps
  reviewed : state.lastReviewedAt.isSome ↔ 0 < n

/-- A lapse needs a card that was reviewed before. -/
theorem lapses_lt {state : CardState ℝ} {n : ℕ} (h : WithinBounds state n) (retention : ℝ) (grade : Grade)
    (now : Instant) :
    (reviewWith retention state grade now).lapses < (reviewWith retention state grade now).reps := by
  have hle := h.lapses
  have hlapsed := h.lapsed
  have hreps := h.reps
  have hreviewed := h.reviewed
  simp only [reviewWith]
  by_cases hagain : grade = .again ∧ ¬ state.isNew = true
  · rw [if_pos hagain]
    have hsome : state.lastReviewedAt.isSome := by
      have hold := hagain.2
      cases hlast : state.lastReviewedAt <;> simp_all [CardState.isNew]
    have hpositive := hreviewed.mp hsome
    rcases Nat.eq_zero_or_pos state.lapses with hzero | hpos
    · omega
    · have := hlapsed hpos
      omega
  · rw [if_neg hagain]
    omega

theorem WithinBounds.review {state : CardState ℝ} {n : ℕ} (h : WithinBounds state n) (retention : ℝ)
    (grade : Grade) (now : Instant) : WithinBounds (reviewWith retention state grade now) (n + 1) where
  difficulty := nextMemory_difficulty state grade now
  stability := le_nextMemory_stability state grade now
  reps := congrArg (· + 1) h.reps
  lapses := (lapses_lt h retention grade now).le
  lapsed := fun _ => lapses_lt h retention grade now
  reviewed := by simp [reviewWith]

theorem Reached.withinBounds {state : CardState ℝ} {n : ℕ} (h : Reached state n) : WithinBounds state n := by
  induction h with
  | new now =>
      refine ⟨clamp_bounds _, ?_, rfl, le_rfl, fun hpos => (lt_irrefl _ hpos).elim, by simp [newCard]⟩
      change (0.01 : ℝ) ≤ 0.01
      exact le_rfl
  | reviewed state n retention grade now positive below_one before ih => exact ih.review retention grade now

/-- What a further review of a card leaves. -/
structure StaysScheduled (retention : ℝ) (state : CardState ℝ) (n : ℕ) (grade : Grade) (now : Instant) :
    Prop where
  difficulty : 1 ≤ (reviewWith retention state grade now).difficulty ∧
    (reviewWith retention state grade now).difficulty ≤ 10
  stability : 0.01 ≤ (reviewWith retention state grade now).stability
  interval : grade ≠ .again → ∃ days : ℤ, 1 ≤ days ∧ days ≤ 365 ∧
    (reviewWith retention state grade now).dueAt = now + days * MICROSECONDS_PER_DAY
  due : now ≤ (reviewWith retention state grade now).dueAt
  reps : (reviewWith retention state grade now).reps = n + 1
  lapses : (reviewWith retention state grade now).lapses < (reviewWith retention state grade now).reps
  again : state.lastReviewedAt.isSome → grade = .again →
    (reviewWith retention state grade now).stability ≤ state.stability
  recalled : state.lastReviewedAt.isSome → grade = .good ∨ grade = .easy →
    state.stability ≤ (reviewWith retention state grade now).stability
  better : state.lastReviewedAt.isSome → grade ≠ .again → ∀ grade' : Grade, grade.value ≤ grade'.value →
    (reviewWith retention state grade now).stability ≤ (reviewWith retention state grade' now).stability

theorem interval_bounds (stability retention : ℝ) :
    1 ≤ intervalDays stability retention ∧ intervalDays stability retention ≤ 365 :=
  ⟨le_min (le_max_right _ _) (by decide), min_le_right _ _⟩

/-- Every review of every card stays inside the bounds, and rewards recall. -/
theorem scheduling_bounded {state : CardState ℝ} {n : ℕ} (h : Reached state n) (retention : ℝ)
    (grade : Grade) (now : Instant) :
    StaysScheduled retention state n grade now := by
  have hbounds := h.withinBounds
  have hnext := hbounds.review retention grade now
  have hinterval := interval_bounds (nextMemory state grade now).1 retention
  refine ⟨hnext.difficulty, hnext.stability, fun hrecalled => ⟨_, hinterval.1, hinterval.2, ?_⟩, ?_,
    hnext.reps, lapses_lt hbounds retention grade now, fun hreviewed hagain => ?_,
    fun hreviewed hgrade => ?_, fun hreviewed hrecalled grade' hvalue => ?_⟩
  · simp only [reviewWith, if_neg hrecalled]
  · simp only [reviewWith]
    split
    · exact le_rfl
    · have hday : (0 : ℤ) < MICROSECONDS_PER_DAY := by decide
      exact le_add_of_nonneg_right (mul_pos (lt_of_lt_of_le one_pos hinterval.1) hday).le
  · obtain ⟨last, hlast⟩ := Option.isSome_iff_exists.mp hreviewed
    subst hagain
    exact again_le hlast hbounds.stability
  · obtain ⟨last, hlast⟩ := Option.isSome_iff_exists.mp hreviewed
    refine le_recalled hlast hbounds.stability ?_
    rcases hgrade with rfl | rfl <;> decide
  · obtain ⟨last, hlast⟩ := Option.isSome_iff_exists.mp hreviewed
    exact recalled_mono hlast hbounds.stability hbounds.difficulty.2 hrecalled hvalue

/-- A card that is answered right once, and then wrong. -/
theorem scheduling_bounded_sample :
    StaysScheduled 0.9 (reviewWith 0.9 (newCard 0) .good 0) 1 .again 5 :=
  scheduling_bounded (.reviewed _ _ 0.9 .good 0 (by norm_num) (by norm_num) (.new 0)) 0.9 .again 5

end Stoa.Practice
