import Stoa.Verification.AiReply.DecodedStrings

/-! # What is redacted

A text in which terms were replaced has nothing new but the replacements. What a term could
be made of has no bracket in it, and no replacement is without one. -/

namespace Stoa.AiReply

open PyText JsonText Regex

/-! ## Letters -/

section

variable {s s' t u r w term : Str} {c l : ℕ}

/-- The code points of the text whose small letters are those of the term. -/
def Word (term w : Str) : Prop := List.Forall₂ (fun l c => (lowerCode c).head? = some l) term w

/-- The pattern of a term matches what has the same small letters. -/
theorem sameLetter_of_head (hl : l = 32 ∨ 97 ≤ l ∧ l ≤ 122) (h : (lowerCode c).head? = some l) :
    AskPrompt.sameLetter l c = true := by
  have hlower : ¬ (65 ≤ l ∧ l ≤ 90) := by omega
  unfold lowerCode at h
  simp only [AskPrompt.sameLetter, if_neg hlower]
  split_ifs at h with h1 h2 h3
  · cases h
    simp [h1]
  · cases h
    simp [h2]
  · cases h
    simp [h3]
  · cases h
    simp [h1]

/-- What a term is spelled with: small letters and blanks. -/
structure Small (term : Str) : Prop where
  letters : ∀ l ∈ term, l = 32 ∨ 97 ≤ l ∧ l ≤ 122
  length : 3 ≤ term.length

theorem Small.notMem (h : Small term) : 0x307 ∉ term := fun hmem => by
  have hl := h.letters _ hmem
  omega

/-! ## Texts with replacements -/

/-- A part of a text that the pattern of a term matches. -/
def Matches (term w : Str) : Prop := List.Forall₂ (fun l c => AskPrompt.sameLetter l c = true) term w

theorem Word.matches (h : Word term w) (hterm : Small term) : Matches term w := by
  have hletters := hterm.letters
  unfold Word at h
  clear hterm
  induction h with
  | nil => exact .nil
  | cons hhead _ ih =>
      exact .cons (sameLetter_of_head (hletters _ (List.mem_cons_self ..)) hhead)
        (ih fun l hl => hletters l (List.mem_cons_of_mem _ hl))

theorem exists_of_mem {R : ℕ → ℕ → Prop} (h : List.Forall₂ R term w) (hc : c ∈ w) : ∃ l ∈ term, R l c := by
  induction h with
  | nil => cases hc
  | cons hhead _ ih =>
      rcases List.mem_cons.mp hc with rfl | hc
      · exact ⟨_, List.mem_cons_self .., hhead⟩
      · obtain ⟨l, hl, hR⟩ := ih hc
        exact ⟨l, List.mem_cons_of_mem _ hl, hR⟩

/-- What a term matches has letters and blanks only. -/
theorem Matches.ne (h : Matches term w) (hterm : Small term) (hc : c ∈ w) : c ≠ 91 ∧ c ≠ 92 ∧ c ≠ 93 := by
  obtain ⟨l, hl, hsame⟩ := exists_of_mem h hc
  have hrange := hterm.letters l hl
  have hlower : ¬ (65 ≤ l ∧ l ≤ 90) := by omega
  simp only [AskPrompt.sameLetter, if_neg hlower, Bool.or_eq_true, Bool.and_eq_true, decide_eq_true_eq] at hsame
  split_ifs at hsame
  all_goals omega

theorem Matches.length (h : Matches term w) (hterm : Small term) : 3 ≤ w.length := by
  rw [← List.Forall₂.length_eq h]
  exact hterm.length

/-- Parts of a text, without a backslash in them, are replaced. -/
inductive Redacted : Str → Str → Prop
  | nil : Redacted [] []
  | keep {c : ℕ} {s s' : Str} (h : Redacted s s') : Redacted (c :: s) (c :: s')
  | cut {x s s' : Str} (hne : x ≠ []) (hx : 92 ∉ x) (h : Redacted s s') : Redacted (x ++ s) (91 :: 65 :: 73 :: 93 :: s')

theorem Redacted.refl (s : Str) : Redacted s s := by
  induction s with
  | nil => exact .nil
  | cons c s ih => exact .keep ih

theorem Redacted.of_isPrefix (h : Redacted s s') (hw : w <+: s') (hopen : 91 ∉ w) : w <+: s := by
  induction h generalizing w with
  | nil => exact hw
  | keep _ ih =>
      cases w with
      | nil => exact List.nil_prefix
      | cons d w =>
          obtain ⟨rfl, htail⟩ := List.cons_prefix_cons.mp hw
          exact List.cons_prefix_cons.mpr ⟨rfl, ih htail fun hmem => hopen (List.mem_cons_of_mem _ hmem)⟩
  | cut =>
      cases w with
      | nil => exact List.nil_prefix
      | cons d w =>
          have hd := (List.cons_prefix_cons.mp hw).1
          simp [hd] at hopen

end

end Stoa.AiReply
