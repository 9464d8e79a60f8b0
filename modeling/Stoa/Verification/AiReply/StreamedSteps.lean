import Stoa.Verification.AiReply.StepPattern
import Stoa.Data.JsonReading

/-! # Steps while the reply comes in

What is found in a part of the text is found in all of it, in the same order: a string that
is cut off has no quote in it that could open another one. -/

namespace Stoa.AiReply

open PyText JsonText Regex

/-! ## The scan of a list -/

/-- The steps that are found in the text of a list. -/
def scanned (items : Str) : List Str := stepsOf (STEP_PATTERN.findIter items)

section

variable {b rest s t : Str} {x : ℕ}

/-- What is found depends on what is ahead only. -/
theorem stepsOf_findFrom {n : ℕ} {c c' : Cursor} (hrest : c.rest = c'.rest) (hn : c.rest.length ≤ n) :
    stepsOf (STEP_PATTERN.findFrom n c) = stepsOf (STEP_PATTERN.findFrom n c') := by
  induction n generalizing c c' with
  | zero => rfl
  | succ n ih =>
      by_cases htoken : ∃ b x rest, Token c.rest b x rest
      · obtain ⟨b, x, rest, h⟩ := htoken
        obtain ⟨d, hd, hdrest, hgroup, hlast⟩ := matchAt_token h
        obtain ⟨d', hd', hdrest', hgroup', hlast'⟩ := matchAt_token (hrest ▸ h)
        have hlt := (matchAt_eq_some hd).2
        have hlater : stepsOf (STEP_PATTERN.findFrom n { d with group := [] }) =
            stepsOf (STEP_PATTERN.findFrom n { d' with group := [] }) :=
          ih (by simp [hdrest, hdrest']) (by simp only; omega)
        simp only [findFrom, hd, hd', stepsOf, hgroup, hgroup', hlast, hlast', hlater]
      · have hno : ∀ b x rest, ¬ Token c.rest b x rest := fun b x rest h => htoken ⟨b, x, rest, h⟩
        simp only [findFrom, matchAt_of_no_token hno, matchAt_of_no_token (hrest ▸ hno), ← hrest]
        cases hleft : c.rest with
        | nil => rfl
        | cons y left =>
            rw [hleft, List.length_cons] at hn
            exact ih rfl (by simp only; omega)

theorem stepsOf_findFrom_eq {n : ℕ} {c : Cursor} (hn : c.rest.length ≤ n) :
    stepsOf (STEP_PATTERN.findFrom n c) = scanned c.rest := by
  rw [findFrom_eq hn le_rfl]
  exact stepsOf_findFrom rfl le_rfl

theorem scanned_token (h : Token s b x rest) : scanned s =
    match loads (34 :: b ++ [34]) with
    | some (.str step) => step :: if x = 93 then [] else scanned rest
    | _ => [] := by
  obtain ⟨d, hd, rfl, rfl, hlast⟩ := matchAt_token (c := .start s) h
  have hlt := h.length_lt
  have hfuel : STEP_PATTERN.findFrom s.length (.start s) = STEP_PATTERN.findFrom (s.length + 1) (.start s) :=
    findFrom_eq le_rfl (Nat.le_succ _)
  rw [scanned, findIter, hfuel]
  simp only [findFrom, hd, stepsOf, hlast, Option.some.injEq]
  have hlater : stepsOf (STEP_PATTERN.findFrom s.length { d with group := [] }) = scanned d.rest :=
    stepsOf_findFrom_eq (by simp only; omega)
  rw [hlater] <;> rfl

theorem scanned_nil : scanned [] = [] := rfl

theorem scanned_cons (h : ∀ b y rest, ¬ Token (x :: s) b y rest) : scanned (x :: s) = scanned s := by
  have hnone : STEP_PATTERN.matchAt (.start (x :: s)) = none := matchAt_of_no_token h
  rw [scanned, findIter, List.length_cons, findFrom, hnone]
  exact stepsOf_findFrom_eq le_rfl

theorem scanned_of_ne (hx : x ≠ 34) : scanned (x :: s) = scanned s := by
  refine scanned_cons fun b y rest h => ?_
  generalize hs : x :: s = t at h
  cases h with
  | intro => exact hx (List.cons.inj hs).1

/-! ## Strings that are cut off -/

/-- The text goes on with a string that does not end, or with nothing after it. -/
inductive Unclosed : Str → Prop
  | nil : Unclosed []
  | slash : Unclosed [92]
  | quote {g : Str} (hg : ∀ c ∈ g, PyText.isSpace c = true) : Unclosed (34 :: g)
  | plain {c : ℕ} {t : Str} (hquote : c ≠ 34) (hslash : c ≠ 92) (ht : Unclosed t) : Unclosed (c :: t)
  | escaped {c : ℕ} {t : Str} (hc : c ≠ 10) (ht : Unclosed t) : Unclosed (92 :: c :: t)

theorem unclosed_of_spaces (hs : ∀ c ∈ s, PyText.isSpace c = true) : Unclosed s := by
  induction s with
  | nil => exact .nil
  | cons c s ih =>
      have hc := hs c (by simp)
      refine .plain ?_ ?_ (ih fun d hd => hs d (by simp [hd]))
      · rintro rfl
        cases hc
      · rintro rfl
        cases hc

/-- A quote that opens here opens nothing that is an item. -/
theorem Unclosed.no_token (hs : Unclosed s) : ¬ Token (34 :: s) b x rest := by
  intro h
  cases h with
  | @intro _ g _ _ hb hg hx =>
      generalize ht : b ++ 34 :: (g ++ x :: rest) = t at hs
      have hspace := isSpace_separator hx
      induction hs generalizing b with
      | nil => simp at ht
      | slash =>
          cases hb with
          | nil => simp at ht
          | plain => simp at ht
          | escaped => simp at ht
      | quote hall =>
          cases hb with
          | nil =>
              obtain ⟨-, rfl⟩ := List.cons.inj ht
              rw [hall x (by simp)] at hspace
              cases hspace
          | plain hquote => exact hquote (List.cons.inj ht).1
          | escaped => exact absurd (List.cons.inj ht).1 (by decide)
      | plain hquote hslash _ ih =>
          cases hb with
          | nil => exact hquote (List.cons.inj ht).1.symm
          | plain _ _ hb => exact ih hb (List.cons.inj ht).2
          | escaped => exact hslash (List.cons.inj ht).1.symm
      | escaped _ _ ih =>
          cases hb with
          | nil => exact absurd (List.cons.inj ht).1 (by decide)
          | plain _ hslash => exact hslash (List.cons.inj ht).1
          | escaped _ hb => exact ih hb (List.cons.inj (List.cons.inj ht).2).2

/-- In a string that is cut off nothing is found. -/
theorem scanned_unclosed (hs : Unclosed s) : scanned s = [] := by
  have hspaces : ∀ g : Str, (∀ c ∈ g, PyText.isSpace c = true) → scanned g = [] := fun g => by
    induction g with
    | nil => exact fun _ => scanned_nil
    | cons c g ih =>
        intro hg
        have hc := hg c (by simp)
        rw [scanned_of_ne, ih fun d hd => hg d (by simp [hd])]
        rintro rfl
        cases hc
  induction hs with
  | nil => exact scanned_nil
  | slash => rw [scanned_of_ne (by decide), scanned_nil]
  | quote hg => rw [scanned_cons fun _ _ _ => (unclosed_of_spaces hg).no_token, hspaces _ hg]
  | plain hquote _ _ ih => rw [scanned_of_ne hquote, ih]
  | @escaped c t _ ht ih =>
      rw [scanned_of_ne (by decide)]
      by_cases hc : c = 34
      · subst hc
        rw [scanned_cons fun _ _ _ => ht.no_token, ih]
      · rw [scanned_of_ne hc, ih]

/-- An item that is cut off. -/
theorem unclosed_of_prefix (hb : Body b) {g : Str} (hg : ∀ c ∈ g, PyText.isSpace c = true) (h : t <+: b ++ 34 :: g) :
    Unclosed t := by
  induction hb generalizing t with
  | nil =>
      cases t with
      | nil => exact .nil
      | cons c t =>
          obtain ⟨rfl, ht⟩ := List.cons_prefix_cons.mp h
          exact .quote fun d hd => hg d (ht.subset hd)
  | plain hquote hslash _ ih =>
      cases t with
      | nil => exact .nil
      | cons c t =>
          obtain ⟨rfl, ht⟩ := List.cons_prefix_cons.mp h
          exact .plain hquote hslash (ih ht)
  | escaped hc _ ih =>
      cases t with
      | nil => exact .nil
      | cons c t =>
          obtain ⟨rfl, ht⟩ := List.cons_prefix_cons.mp h
          cases t with
          | nil => exact .slash
          | cons d t =>
              obtain ⟨rfl, hlater⟩ := List.cons_prefix_cons.mp ht
              exact .escaped hc (ih hlater)

/-- A part of a text has the token that the text begins with, or is cut off within it. -/
theorem Token.of_isPrefix (h : Token s b x rest) (hbegins : t <+: s) :
    (∃ rest', Token t b x rest' ∧ rest' <+: rest) ∨ t = [] ∨ ∃ t', t = 34 :: t' ∧ Unclosed t' := by
  cases h with
  | @intro _ g _ _ hb hg hx =>
      cases t with
      | nil => exact .inr (.inl rfl)
      | cons c t =>
          obtain ⟨rfl, ht⟩ := List.cons_prefix_cons.mp hbegins
          have hassoc : b ++ 34 :: (g ++ x :: rest) = (b ++ 34 :: g) ++ x :: rest := by simp
          rw [hassoc] at ht
          rcases List.prefix_or_prefix_of_prefix ht (List.prefix_append ..) with hcut | ⟨u, rfl⟩
          · exact .inr (.inr ⟨t, rfl, unclosed_of_prefix hb hg hcut⟩)
          · have hu := (List.prefix_append_right_inj _).mp ht
            cases u with
            | nil => exact .inr (.inr ⟨_, rfl, unclosed_of_prefix hb hg (by simp)⟩)
            | cons y u =>
                obtain ⟨rfl, hrest⟩ := List.cons_prefix_cons.mp hu
                refine .inl ⟨u, ?_, hrest⟩
                have htoken := Token.intro (r := u) hb hg hx
                simpa using htoken

/-- What is found in a part of a text is found in the text. -/
theorem scanned_mono (h : t <+: s) : scanned t <+: scanned s := by
  induction hn : t.length using Nat.strong_induction_on generalizing s t with
  | _ n ih =>
  subst hn
  by_cases htoken : ∃ b x rest, Token s b x rest
  · obtain ⟨b, x, rest, hs⟩ := htoken
    rcases hs.of_isPrefix h with ⟨rest', ht, hrest⟩ | rfl | ⟨t', rfl, ht'⟩
    · rw [scanned_token ht, scanned_token hs]
      split
      · split
        · exact List.prefix_refl _
        · exact List.cons_prefix_cons.mpr ⟨rfl, ih _ ht.length_lt hrest rfl⟩
      · exact List.prefix_refl _
    · exact List.nil_prefix
    · rw [scanned_cons fun _ _ _ => ht'.no_token, scanned_unclosed ht']
      exact List.nil_prefix
  · have hno : ∀ b x rest, ¬ Token s b x rest := fun b x rest hs => htoken ⟨b, x, rest, hs⟩
    cases t with
    | nil => exact List.nil_prefix
    | cons c t =>
        cases s with
        | nil => simp at h
        | cons c' s =>
            obtain ⟨rfl, hts⟩ := List.cons_prefix_cons.mp h
            obtain ⟨later, rfl⟩ := hts
            have hno' : ∀ b x rest, ¬ Token (c :: t) b x rest := fun b x rest ht => hno b x _ (ht.append later)
            rw [scanned_cons hno, scanned_cons hno']
            exact ih t.length (Nat.lt_succ_self _) (List.prefix_append ..) rfl

end

/-! ## The steps of a part of the reply -/

section

variable {part s t : Str}

theorem afterFirst_length {tail : Str} (h : afterFirst part s = some tail) : part.length ≤ s.length := by
  induction s with
  | nil =>
      unfold afterFirst at h
      split at h
      · rename_i hpart
        simp [hpart]
      · cases h
  | cons c s ih =>
      unfold afterFirst at h
      split at h
      · rename_i hbegins
        exact hbegins.length_le
      · exact (ih h).trans (Nat.le_succ _)

theorem afterFirst_append {tail : Str} (h : afterFirst part s = some tail) (t : Str) :
    afterFirst part (s ++ t) = some (tail ++ t) := by
  induction s with
  | nil =>
      unfold afterFirst at h
      split at h
      · rename_i hpart
        cases h
        cases t with
        | nil => rw [List.append_nil, afterFirst, if_pos hpart]
        | cons c t => simp [afterFirst, hpart]
      · cases h
  | cons c s ih =>
      unfold afterFirst at h
      split at h
      · rename_i hbegins
        cases h
        have hlong : part <+: c :: (s ++ t) := hbegins.trans (List.prefix_append ..)
        rw [List.cons_append, afterFirst, if_pos hlong, ← List.cons_append,
          List.drop_append_of_le_length hbegins.length_le]
      · rename_i hbegins
        have hlater := ih h
        rw [List.cons_append, afterFirst]
        split
        · rename_i hlong
          have hlength := afterFirst_length h
          refine absurd (List.prefix_of_prefix_length_le hlong (List.prefix_append (c :: s) t) ?_) hbegins
          simp only [List.length_cons]
          omega
        · exact hlater

/-- The steps that were found stay when more text comes in. -/
theorem completedSteps_mono (h : t <+: s) : completedSteps t <+: completedSteps s := by
  obtain ⟨later, rfl⟩ := h
  unfold completedSteps
  cases hafter : afterFirst STEPS_KEY t with
  | none => exact List.nil_prefix
  | some tail =>
      rw [afterFirst_append hafter later]
      cases hopen : tail.dropWhile (· ≠ 91) with
      | nil => simp only [hopen]; exact List.nil_prefix
      | cons c items =>
          have hall : (tail ++ later).dropWhile (· ≠ 91) = c :: (items ++ later) := by
            rw [List.dropWhile_append, hopen]
            simp
          simp only [hopen, hall]
          exact scanned_mono (List.prefix_append ..)

end

/-! ## The stream -/

/-- The text that an event brings. -/
def Event.text : Event → Str
  | .delta text => text
  | .other => []
  | .malformed => []

/-- Each step of a reply was reported once, with its place. -/
def reportsOf (steps : List Str) : List (ℕ × Str) := steps.zipIdx.map Prod.swap

/-- What was reported are the steps of what has come in. -/
structure Streamed.Told (s : Streamed) : Prop where
  reported : s.reported = (completedSteps s.rawText).length
  calls : s.calls = reportsOf (completedSteps s.rawText)

section

variable {s : Streamed} {T : Str} {steps : List Str}

/-- More text: the steps that are new are reported. -/
theorem Streamed.Told.delta (h : s.Told) (text : Str) : (s.delta text).Told := by
  obtain ⟨later, hlater⟩ := completedSteps_mono (List.prefix_append s.rawText text)
  refine ⟨?_, ?_⟩
  · simp only [Streamed.delta, ← hlater, h.reported, List.length_append]
    omega
  · simp only [Streamed.delta, ← hlater, h.reported, h.calls, reportsOf, List.drop_left, List.zipIdx_append,
      List.map_append, Nat.zero_add]

end

/-! ## The list of the steps -/

section

variable {s r rest items tail T : Str} {v : Str} {steps : List Str}

end

end Stoa.AiReply
