import Stoa.Model.AiReply

/-! # The pattern of a step

A step is found where a quote opens a string, the next quote that is not escaped closes it,
and a comma or a bracket follows after blanks. -/

namespace Stoa.AiReply

open PyText JsonText Regex

/-! ## Closed strings -/

/-- What the pattern takes between two quotes. -/
inductive Body : Str → Prop
  | nil : Body []
  | plain {c : ℕ} {b : Str} (hquote : c ≠ 34) (hslash : c ≠ 92) (hb : Body b) : Body (c :: b)
  | escaped {c : ℕ} {b : Str} (hc : c ≠ 10) (hb : Body b) : Body (92 :: c :: b)

/-- The text begins with a string in quotes, blanks and what ends an item. -/
inductive Token : Str → Str → ℕ → Str → Prop
  | intro {b g r : Str} {x : ℕ} (hb : Body b) (hg : ∀ c ∈ g, PyText.isSpace c = true) (hx : x = 44 ∨ x = 93) :
      Token (34 :: (b ++ 34 :: (g ++ x :: r))) b x r

section

variable {b b' g g' r r' s : Str} {x x' : ℕ}

/-- A string is closed at the first quote that is not escaped. -/
theorem Body.unique (hb : Body b) (hb' : Body b') (h : b ++ 34 :: r = b' ++ 34 :: r') : b = b' ∧ r = r' := by
  induction hb generalizing b' with
  | nil =>
      cases hb' with
      | nil => exact ⟨rfl, (List.cons.inj h).2⟩
      | plain hquote => exact absurd (List.cons.inj h).1.symm hquote
      | escaped => exact absurd (List.cons.inj h).1 (by decide)
  | plain hquote hslash _ ih =>
      cases hb' with
      | nil => exact absurd (List.cons.inj h).1 hquote
      | plain _ _ hb' =>
          obtain ⟨rfl, htail⟩ := List.cons.inj h
          exact (ih hb' htail).imp_left (congrArg _)
      | escaped => exact absurd (List.cons.inj h).1 hslash
  | escaped _ _ ih =>
      cases hb' with
      | nil => exact absurd (List.cons.inj h).1 (by decide)
      | plain _ hslash => exact absurd (List.cons.inj h).1.symm hslash
      | escaped _ hb' =>
          obtain ⟨rfl, htail⟩ := List.cons.inj (List.cons.inj h).2
          exact (ih hb' htail).imp_left fun heq => by rw [heq]

theorem spaces_unique (hg : ∀ c ∈ g, PyText.isSpace c = true) (hg' : ∀ c ∈ g', PyText.isSpace c = true)
    (hx : PyText.isSpace x = false) (hx' : PyText.isSpace x' = false) (h : g ++ x :: r = g' ++ x' :: r') : g = g' ∧ x = x' ∧ r = r' := by
  induction g generalizing g' with
  | nil =>
      cases g' with
      | nil => exact ⟨rfl, List.cons.inj h⟩
      | cons c g' =>
          have hc := hg' c (by simp)
          rw [← (List.cons.inj h).1, hx] at hc
          cases hc
  | cons c g ih =>
      cases g' with
      | nil =>
          have hc := hg c (by simp)
          rw [(List.cons.inj h).1, hx'] at hc
          cases hc
      | cons c' g' =>
          obtain ⟨rfl, htail⟩ := List.cons.inj h
          have hrest := ih (fun d hd => hg d (by simp [hd])) (fun d hd => hg' d (by simp [hd])) htail
          exact hrest.imp_left (congrArg _)

theorem isSpace_separator (hx : x = 44 ∨ x = 93) : PyText.isSpace x = false := by rcases hx with rfl | rfl <;> rfl

/-- There is one way only to read what begins with a token. -/
theorem Token.unique (h : Token s b x r) (h' : Token s b' x' r') : b = b' ∧ x = x' ∧ r = r' := by
  cases h with
  | @intro _ g _ _ hb hg hx =>
      generalize hs : 34 :: (b ++ 34 :: (g ++ x :: r)) = s at h'
      cases h' with
      | intro hb' hg' hx' =>
          obtain ⟨rfl, htail⟩ := hb.unique hb' (List.cons.inj hs).2
          have hrest := spaces_unique hg hg' (isSpace_separator hx) (isSpace_separator hx') htail
          exact ⟨rfl, hrest.2⟩

theorem Token.length_lt (h : Token s b x r) : r.length < s.length := by
  cases h
  simp
  omega

/-- What comes later does not change the token. -/
theorem Token.append (h : Token s b x r) (t : Str) : Token (s ++ t) b x (r ++ t) := by
  cases h with
  | intro hb hg hx =>
      have htoken := Token.intro (r := r ++ t) hb hg hx
      simpa using htoken

end

/-! ## The pattern finds tokens -/

section

variable {c d : Cursor}

theorem mem_ends_body : d ∈ ends (.star (.alt (.one fun c => c ≠ 34 && c ≠ 92) (.seq (.one (· = 92)) (.one (· ≠ 10))))) c ↔
    ∃ b rest, c.rest = b ++ rest ∧ Body b ∧ d = ⟨b.reverse ++ c.passed, rest, c.group⟩ := by
  rw [mem_ends_star]
  constructor
  · intro h
    induction h using Relation.ReflTransGen.head_induction_on with
    | refl => exact ⟨[], d.rest, rfl, .nil, rfl⟩
    | head hstep _ ih =>
        obtain ⟨b, later, hlater, hb, rfl⟩ := ih
        rcases List.mem_append.mp hstep.1 with hone | htwo
        · obtain ⟨x, rest, hrest, hp, rfl⟩ := mem_ends_one.mp hone
          simp only [ne_eq, Bool.and_eq_true, decide_eq_true_eq] at hp
          refine ⟨x :: b, later, ?_, .plain hp.1 hp.2 hb, by simp⟩
          rw [hrest, List.cons_append]
          exact congrArg _ hlater
        · obtain ⟨e, hslash, hescaped⟩ := mem_ends_seq.mp htwo
          obtain ⟨x, rest, hrest, hx, rfl⟩ := mem_ends_one.mp hslash
          obtain ⟨y, rest', hrest', hy, rfl⟩ := mem_ends_one.mp hescaped
          cases of_decide_eq_true hx
          refine ⟨92 :: y :: b, later, ?_, .escaped (of_decide_eq_true hy) hb, by simp⟩
          cases hrest'
          cases hlater
          exact hrest
  · rintro ⟨b, rest, hrest, hb, rfl⟩
    induction hb generalizing c with
    | nil =>
        obtain ⟨passed, left, group⟩ := c
        cases hrest
        exact .refl
    | @plain x b hquote hslash _ ih =>
        refine .head (b := ⟨x :: c.passed, b ++ rest, c.group⟩) ⟨List.mem_append_left _ ?_, by simp [hrest]⟩ ?_
        · exact mem_ends_one.mpr ⟨x, _, hrest, by simp [hquote, hslash], rfl⟩
        · simpa using ih (c := ⟨x :: c.passed, b ++ rest, c.group⟩) rfl
    | @escaped y b hy _ ih =>
        refine .head (b := ⟨y :: 92 :: c.passed, b ++ rest, c.group⟩) ⟨List.mem_append_right _ ?_, by simp [hrest] <;> omega⟩ ?_
        · refine mem_ends_seq.mpr ⟨⟨92 :: c.passed, y :: (b ++ rest), c.group⟩, ?_, ?_⟩
          · exact mem_ends_one.mpr ⟨92, _, hrest, rfl, rfl⟩
          · exact mem_ends_one.mpr ⟨y, _, rfl, by simpa using hy, rfl⟩
        · simpa using ih (c := ⟨y :: 92 :: c.passed, b ++ rest, c.group⟩) rfl

theorem mem_ends_group (r : Regex) : d ∈ ends (.group r) c ↔ ∃ e ∈ ends r c, d = { e with group := c.between e } := by
  simp [ends, eq_comm]

/-- Where a match of the pattern ends. -/
theorem mem_ends_stepPattern : d ∈ ends STEP_PATTERN c ↔ ∃ b g x rest, Body b ∧ (∀ y ∈ g, PyText.isSpace y = true) ∧
    (x = 44 ∨ x = 93) ∧ c.rest = 34 :: (b ++ 34 :: (g ++ x :: rest)) ∧
    d = ⟨x :: (g.reverse ++ 34 :: (b.reverse ++ 34 :: c.passed)), rest, b⟩ := by
  constructor
  · intro hd
    obtain ⟨d₁, h₁, hd⟩ := mem_ends_seq.mp hd
    obtain ⟨d₂, h₂, hd⟩ := mem_ends_seq.mp hd
    obtain ⟨d₃, h₃, hd⟩ := mem_ends_seq.mp hd
    obtain ⟨d₄, h₄, h₅⟩ := mem_ends_seq.mp hd
    obtain ⟨q, rest₁, hrest₁, hq, rfl⟩ := mem_ends_one.mp h₁
    obtain ⟨e, he, rfl⟩ := (mem_ends_group _).mp h₂
    obtain ⟨b, rest₂, hrest₂, hb, rfl⟩ := mem_ends_body.mp he
    obtain ⟨q', rest₃, hrest₃, hq', rfl⟩ := mem_ends_one.mp h₃
    obtain ⟨g, rest₄, hrest₄, hg, rfl⟩ := mem_ends_star_one.mp h₄
    obtain ⟨x, rest, hrest, hx, rfl⟩ := mem_ends_one.mp h₅
    cases of_decide_eq_true hq
    cases of_decide_eq_true hq'
    simp only [Bool.or_eq_true, decide_eq_true_eq] at hx hrest hrest₂ hrest₃ hrest₄
    refine ⟨b, g, x, rest, hb, hg, hx, ?_, ?_⟩
    · rw [hrest₁, hrest₂, hrest₃, hrest₄, hrest]
    · simp [Cursor.between]
  · rintro ⟨b, g, x, rest, hb, hg, hx, hrest, rfl⟩
    refine mem_ends_seq.mpr ⟨⟨34 :: c.passed, _, c.group⟩, mem_ends_one.mpr ⟨34, _, hrest, rfl, rfl⟩, ?_⟩
    refine mem_ends_seq.mpr ⟨⟨b.reverse ++ 34 :: c.passed, 34 :: (g ++ x :: rest), b⟩, ?_, ?_⟩
    · refine (mem_ends_group _).mpr ⟨_, mem_ends_body.mpr ⟨b, _, rfl, hb, rfl⟩, ?_⟩
      simp [Cursor.between]
    · refine mem_ends_seq.mpr ⟨⟨34 :: (b.reverse ++ 34 :: c.passed), _, b⟩, mem_ends_one.mpr ⟨34, _, rfl, rfl, rfl⟩, ?_⟩
      refine mem_ends_seq.mpr ⟨_, mem_ends_star_one.mpr ⟨g, _, rfl, hg, rfl⟩, ?_⟩
      exact mem_ends_one.mpr ⟨x, rest, rfl, by simpa using hx, rfl⟩

/-- The pattern matches a token and takes all of it. -/
theorem matchAt_token {b rest : Str} {x : ℕ} (h : Token c.rest b x rest) : ∃ d, STEP_PATTERN.matchAt c = some d ∧
    d.rest = rest ∧ d.group = b ∧ ((c.between d).reverse.dropWhile PyText.isSpace).head? = some x := by
  generalize hs : c.rest = s at h
  cases h with
  | @intro _ g _ _ hb hg hx =>
      refine ⟨⟨x :: (g.reverse ++ 34 :: (b.reverse ++ 34 :: c.passed)), rest, b⟩, ?_, rfl, rfl, ?_⟩
      · refine matchAt_of_forall (mem_ends_stepPattern.mpr ⟨b, g, x, rest, hb, hg, hx, hs, rfl⟩) ?_ ?_
        · intro e he
          obtain ⟨b', g', x', rest', hb', hg', hx', hrest', rfl⟩ := mem_ends_stepPattern.mp he
          rw [hs] at hrest'
          obtain ⟨rfl, htail⟩ := hb.unique hb' (List.cons.inj hrest').2
          obtain ⟨rfl, rfl, rfl⟩ := spaces_unique hg hg' (isSpace_separator hx) (isSpace_separator hx') htail
          rfl
        · rw [hs]
          simp
          omega
      · have hlength : (x :: (g.reverse ++ 34 :: (b.reverse ++ 34 :: c.passed))).length - c.passed.length =
            (x :: (g.reverse ++ 34 :: (b.reverse ++ [34]))).length := by
          simp
          omega
        have hsplit : x :: (g.reverse ++ 34 :: (b.reverse ++ 34 :: c.passed)) =
            x :: (g.reverse ++ 34 :: (b.reverse ++ [34])) ++ c.passed := by simp
        rw [Cursor.between, hlength, hsplit, List.take_left, List.reverse_reverse, List.dropWhile_cons_of_neg]
        · rfl
        · simp [isSpace_separator hx]

theorem matchAt_of_no_token (h : ∀ b x rest, ¬ Token c.rest b x rest) : STEP_PATTERN.matchAt c = none := by
  refine matchAt_eq_none fun d hd => ?_
  obtain ⟨b, g, x, rest, hb, hg, hx, hrest, -⟩ := mem_ends_stepPattern.mp hd
  refine h b x rest ?_
  rw [hrest]
  exact .intro hb hg hx

end

end Stoa.AiReply
