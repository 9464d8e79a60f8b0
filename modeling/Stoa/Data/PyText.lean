import Mathlib.Data.List.Infix
import Mathlib.Data.Nat.Digits.Defs

/-! # Texts as lists of code points

A text may hold a surrogate by itself, which no character of a string does. -/

namespace PyText

abbrev Str := List ℕ

instance : LawfulBEq Str := inferInstance

/-- The code points of a text that has no surrogates. -/
def str (s : String) : Str := s.toList.map Char.toNat

/-- `str.isspace` of one code point. -/
def isSpace (n : ℕ) : Bool :=
  (9 ≤ n && n ≤ 13) || (28 ≤ n && n ≤ 32) || n == 0x85 || n == 0xa0 || n == 0x1680 ||
    (0x2000 ≤ n && n ≤ 0x200a) || n == 0x2028 || n == 0x2029 || n == 0x202f ||
    n == 0x205f || n == 0x3000

/-- `str.strip`. -/
def strip (s : Str) : Str := ((s.dropWhile isSpace).reverse.dropWhile isSpace).reverse

/-- The words that remain, where one of them may have begun. -/
def wordsFrom : Str → Str → List Str
  | word, [] => if word = [] then [] else [word.reverse]
  | word, c :: s =>
    if isSpace c then if word = [] then wordsFrom [] s else word.reverse :: wordsFrom [] s
    else wordsFrom (c :: word) s

/-- `str.split` without an argument. -/
def splitWords (s : Str) : List Str := wordsFrom [] s

/-- `str.join`. -/
def join (sep : Str) : List Str → Str
  | [] => []
  | [s] => s
  | s :: t :: rest => s ++ sep ++ join sep (t :: rest)

/-- `str.replace` of one code point. -/
def replace (old : ℕ) (new : Str) (s : Str) : Str := s.flatMap fun c => if c = old then new else [c]

/-- The pieces that remain, where `skip` code points still belong to a separator. -/
def splitFrom (sep : Str) : ℕ → Str → Str → List Str
  | _, piece, [] => [piece.reverse]
  | skip + 1, piece, _ :: s => splitFrom sep skip piece s
  | 0, piece, c :: s =>
    if sep <+: c :: s then piece.reverse :: splitFrom sep (sep.length - 1) [] s
    else splitFrom sep 0 (c :: piece) s

/-- `str.split` at a separator. -/
def splitAt (sep s : Str) : List Str := splitFrom sep 0 [] s

/-- Where `str.splitlines` ends a line. -/
def isLineBreak (n : ℕ) : Bool :=
  (10 ≤ n && n ≤ 13) || (28 ≤ n && n ≤ 30) || n == 0x85 || n == 0x2028 || n == 0x2029

def splitLinesFrom : Str → Str → List Str
  | line, [] => if line = [] then [] else [line.reverse]
  | line, 13 :: 10 :: s => line.reverse :: splitLinesFrom [] s
  | line, c :: s => if isLineBreak c then line.reverse :: splitLinesFrom [] s else splitLinesFrom (c :: line) s

/-- `str.splitlines`. -/
def splitLines (s : Str) : List Str := splitLinesFrom [] s

/-- The decimal digits of a number. -/
def decimal (n : ℕ) : Str := if n = 0 then [48] else ((Nat.digits 10 n).map (48 + ·)).reverse

/-- `str` of a whole number. -/
def ofInt : ℤ → Str
  | .ofNat n => decimal n
  | .negSucc n => 45 :: decimal (n + 1)

/-! ## What the texts are made of -/

section

variable {s sep : Str} {c : ℕ}

theorem mem_join {parts : List Str} (h : c ∈ join sep parts) : c ∈ sep ∨ ∃ p ∈ parts, c ∈ p := by
  induction parts with
  | nil => cases h
  | cons s rest ih =>
      cases rest with
      | nil => exact .inr ⟨s, List.mem_singleton_self s, h⟩
      | cons t rest =>
          rcases List.mem_append.mp h with hs | hrest
          · rcases List.mem_append.mp hs with hs | hsep
            · exact .inr ⟨s, List.mem_cons_self .., hs⟩
            · exact .inl hsep
          · rcases ih hrest with hsep | ⟨p, hp, hc⟩
            · exact .inl hsep
            · exact .inr ⟨p, List.mem_cons_of_mem _ hp, hc⟩

theorem mem_of_mem_strip (h : c ∈ strip s) : c ∈ s := by
  rw [strip, List.mem_reverse] at h
  have hin := (List.dropWhile_sublist _).mem h
  rw [List.mem_reverse] at hin
  exact (List.dropWhile_sublist _).mem hin

theorem mem_replace {old : ℕ} {new : Str} (h : c ∈ replace old new s) : c ∈ new ∨ c ∈ s ∧ c ≠ old := by
  obtain ⟨d, hd, hc⟩ := List.mem_flatMap.mp h
  split at hc
  · exact .inl hc
  · rename_i hne
    cases List.mem_singleton.mp hc
    exact .inr ⟨hd, hne⟩

theorem mem_wordsFrom {word w : Str} (h : w ∈ wordsFrom word s) (hword : ∀ c ∈ word, isSpace c = false) :
    w ≠ [] ∧ ∀ c ∈ w, (c ∈ word ∨ c ∈ s) ∧ isSpace c = false := by
  induction s generalizing word with
  | nil =>
      unfold wordsFrom at h
      split at h
      · cases h
      · rename_i hne
        cases List.mem_singleton.mp h
        refine ⟨by simpa using hne, fun c hc => ?_⟩
        exact ⟨.inl (List.mem_reverse.mp hc), hword c (List.mem_reverse.mp hc)⟩
  | cons d s ih =>
      have hlater : w ∈ wordsFrom [] s → w ≠ [] ∧ ∀ c ∈ w, (c ∈ word ∨ c ∈ d :: s) ∧ isSpace c = false := fun h => by
        obtain ⟨hne, hall⟩ := ih h (fun _ hc => by cases hc)
        refine ⟨hne, fun c hc => ⟨.inr (List.mem_cons_of_mem _ ?_), (hall c hc).2⟩⟩
        exact (hall c hc).1.resolve_left List.not_mem_nil
      unfold wordsFrom at h
      split at h
      · split at h
        · exact hlater h
        · rename_i hne
          rcases List.mem_cons.mp h with rfl | h
          · refine ⟨by simpa using hne, fun c hc => ?_⟩
            exact ⟨.inl (List.mem_reverse.mp hc), hword c (List.mem_reverse.mp hc)⟩
          · exact hlater h
      · rename_i hspace
        obtain ⟨hne, hall⟩ := ih h fun c hc => by
          rcases List.mem_cons.mp hc with rfl | hc
          · simpa using hspace
          · exact hword c hc
        refine ⟨hne, fun c hc => ⟨?_, (hall c hc).2⟩⟩
        rcases (hall c hc).1 with hin | hin
        · rcases List.mem_cons.mp hin with rfl | hin
          · exact .inr (List.mem_cons_self ..)
          · exact .inl hin
        · exact .inr (List.mem_cons_of_mem _ hin)

/-- A word has no blanks, and nothing that the text does not have. -/
theorem mem_splitWords {w : Str} (h : w ∈ splitWords s) : w ≠ [] ∧ ∀ c ∈ w, c ∈ s ∧ isSpace c = false := by
  obtain ⟨hne, hall⟩ := mem_wordsFrom h fun _ hc => by cases hc
  exact ⟨hne, fun c hc => ⟨(hall c hc).1.resolve_left List.not_mem_nil, (hall c hc).2⟩⟩

theorem mem_decimal {n : ℕ} (h : c ∈ decimal n) : 48 ≤ c ∧ c ≤ 57 := by
  unfold decimal at h
  split at h
  · cases List.mem_singleton.mp h
    decide
  · rw [List.mem_reverse] at h
    obtain ⟨d, hd, rfl⟩ := List.mem_map.mp h
    have hlt := Nat.digits_lt_base (b := 10) (by decide) hd
    omega

/-- Numbers are read back from their digits. -/
theorem decimal_injective {m n : ℕ} (h : decimal m = decimal n) : m = n := by
  have hdigits : ∀ n, Nat.ofDigits 10 ((decimal n).reverse.map (· - 48)) = n := by
    intro n
    unfold decimal
    split
    · rename_i hn
      subst hn
      rfl
    · rw [List.reverse_reverse, List.map_map]
      have hid : ((· - 48) ∘ (48 + ·) : ℕ → ℕ) = id := by
        funext x
        simp
      rw [hid, List.map_id, Nat.ofDigits_digits]
  rw [← hdigits m, h, hdigits]

end

/-! ## Splitting -/

section

variable {s sep : Str}

theorem splitFrom_skip (x piece : Str) : splitFrom sep x.length piece (x ++ s) = splitFrom sep 0 piece s := by
  induction x with
  | nil => rfl
  | cons c x ih => exact ih

/-- A separator ends a piece. -/
theorem splitFrom_sep (hne : sep ≠ []) (piece : Str) :
    splitFrom sep 0 piece (sep ++ s) = piece.reverse :: splitAt sep s := by
  obtain ⟨c, rest, rfl⟩ := List.exists_cons_of_ne_nil hne
  rw [List.cons_append, splitFrom, if_pos (by simp)]
  exact congrArg _ (splitFrom_skip rest [])

/-- A text in which no separator begins is part of one piece. -/
theorem splitFrom_append {p : Str} (h : ∀ q, q ≠ [] → q <:+ p → ¬ sep <+: q ++ s) (piece : Str) :
    splitFrom sep 0 piece (p ++ s) = splitFrom sep 0 (p.reverse ++ piece) s := by
  induction p generalizing piece with
  | nil => rfl
  | cons c p ih =>
      have hnot : ¬ sep <+: c :: (p ++ s) := h (c :: p) (by simp) (List.suffix_refl _)
      rw [List.cons_append, splitFrom, if_neg hnot,
        ih (fun q hq hsuffix => h q hq (hsuffix.trans (List.suffix_cons ..))), List.reverse_cons, List.append_assoc]
      rfl

theorem splitLinesFrom_append {p : Str} (h : ∀ c ∈ p, isLineBreak c = false) (line : Str) :
    splitLinesFrom line (p ++ s) = splitLinesFrom (p.reverse ++ line) s := by
  induction p generalizing line with
  | nil => rfl
  | cons c p ih =>
      have hc := h c (List.mem_cons_self ..)
      have hne : c ≠ 13 := by
        rintro rfl
        cases hc
      rw [List.cons_append, splitLinesFrom, if_neg (by simp [hc]), ih fun d hd => h d (List.mem_cons_of_mem _ hd),
        List.reverse_cons, List.append_assoc]
      · rfl
      · rintro d rfl
        exact absurd rfl hne

/-- The pieces of a joined text are the pieces of its parts. -/
theorem splitOn_join {c : ℕ} {parts : List Str} (hne : parts ≠ []) :
    (join [c] parts).splitOn c = parts.flatMap (·.splitOn c) := by
  induction parts with
  | nil => exact absurd rfl hne
  | cons s rest ih =>
      cases rest with
      | nil => simp [join]
      | cons t rest =>
          rw [join, List.append_assoc, List.singleton_append, List.splitOn_append_cons_self, ih (by simp)]
          rfl

/-- Texts with the same pieces are the same. -/
theorem splitOn_injective {c : ℕ} {t : Str} (h : s.splitOn c = t.splitOn c) : s = t := by
  have hjoined : [c].intercalate (s.splitOn c) = s := List.intercalate_splitOn c
  rw [← hjoined, h, List.intercalate_splitOn]

/-- There is one more piece than there are separators. -/
theorem length_splitOn (c : ℕ) (s : Str) : (s.splitOn c).length = s.count c + 1 := by
  induction s with
  | nil => rfl
  | cons x s ih =>
      by_cases hx : x = c
      · subst hx
        rw [List.count_cons_self, ← ih]
        have happend := List.splitOn_append_cons_self (a := x) [] s
        rw [List.nil_append, List.splitOn_nil, List.singleton_append] at happend
        rw [happend, List.length_cons]
      · rw [List.count_cons_of_ne hx, ← ih, List.splitOn_cons_eq_if_modifyHead, if_neg (by simpa using hx)]
        simp

/-- The lines of a text are those that it was joined from. -/
theorem splitLines_join {lines : List Str} (h : ∀ l ∈ lines, l ≠ [] ∧ ∀ c ∈ l, isLineBreak c = false) :
    splitLines (join [10] lines) = lines := by
  unfold splitLines
  induction lines with
  | nil => rfl
  | cons l rest ih =>
      obtain ⟨hne, hl⟩ := h l (List.mem_cons_self ..)
      cases rest with
      | nil =>
          have hend := splitLinesFrom_append (s := []) hl []
          rw [List.append_nil, List.append_nil] at hend
          rw [join, hend, splitLinesFrom, if_neg (by simpa using hne), List.reverse_reverse]
      | cons l' rest =>
          rw [join, List.append_assoc, splitLinesFrom_append hl, List.append_nil, List.singleton_append, splitLinesFrom,
            if_pos (by decide), List.reverse_reverse, ih fun x hx => h x (List.mem_cons_of_mem _ hx)]
          rintro s ⟨⟩

end

end PyText
