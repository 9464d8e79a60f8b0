import Stoa.Model.AnswerJudging
import Mathlib.Data.List.TakeWhile

/-! # Two writings of one number

A numeral is normalised to the digits of its number, as far as the precision of the
decimal context goes. -/

namespace Stoa.AnswerJudging

open PyText Regex

/-! ## Numerals -/

inductive Sign where
  | hyphen
  | minusSign

/-- What may follow the whole digits. -/
inductive Tail where
  | none
  | fraction (comma : Bool) (first : Fin 10) (rest : List (Fin 10))
  /-- `.–` -/
  | wholePrice

/-- A number as it is written: a sign, digits, groups of three behind an apostrophe, of
which some are curly, and a tail. -/
structure Numeral where
  sign : Option Sign
  first : Fin 10
  rest : List (Fin 10)
  groups : List (Bool × Fin 10 × Fin 10 × Fin 10)
  tail : Tail

def digitText (ds : List (Fin 10)) : Str := ds.map fun d => 48 + d.val

def groupText : Bool × Fin 10 × Fin 10 × Fin 10 → Str
  | (curly, a, b, c) => (if curly then 0x2019 else 39) :: digitText [a, b, c]

def Sign.text : Sign → Str
  | .hyphen => [45]
  | .minusSign => [0x2212]

def Tail.text : Tail → Str
  | .none => []
  | .fraction comma first rest => (if comma then 44 else 46) :: digitText (first :: rest)
  | .wholePrice => [46, 0x2013]

def Tail.digits : Tail → List (Fin 10)
  | .fraction _ first rest => first :: rest
  | _ => []

namespace Numeral

variable (n : Numeral)

def lead : List (Fin 10) := n.first :: n.rest

/-- Everything behind the sign. -/
def body : Str := digitText n.lead ++ n.groups.flatMap groupText ++ n.tail.text

def text : Str := (n.sign.map Sign.text).getD [] ++ n.body

/-- The digits before the fraction. -/
def wholeDigits : List (Fin 10) := n.lead ++ n.groups.flatMap fun (_, a, b, c) => [a, b, c]

def digitsValue (ds : List (Fin 10)) : ℕ := Decimal.ofDigits (ds.map Fin.val)

def magnitude : ℚ := digitsValue n.wholeDigits + digitsValue n.tail.digits / 10 ^ n.tail.digits.length

/-- The number that is written. -/
def rational : ℚ := if n.sign.isSome then -n.magnitude else n.magnitude

end Numeral

/-- The same number. Zeros with a sign and without one are told apart. -/
def SameNumber (a b : Numeral) : Prop :=
  a.rational = b.rational ∧ (a.rational = 0 → a.sign.isSome = b.sign.isSome)

/-- A numeral with blanks around it. -/
structure Written where
  numeral : Numeral
  before : Str
  after : Str
  isSpace_before : ∀ c ∈ before, PyText.isSpace c = true
  isSpace_after : ∀ c ∈ after, PyText.isSpace c = true

def Written.text (w : Written) : Str := w.before ++ w.numeral.text ++ w.after

/-- What numerals are made of. -/
def InNumerals (c : ℕ) : Prop := (48 ≤ c ∧ c ≤ 57) ∨ c ∈ [45, 0x2212, 39, 0x2019, 44, 46, 0x2013]

/-- The tables say of numerals and blanks what they say of them in ASCII. -/
structure Unicode.OnNumerals (unicode : Unicode) : Prop where
  nfkc : ∀ s, (∀ c ∈ s, PyText.isSpace c = true ∨ InNumerals c) → unicode.nfkc s = Unicode.ascii.nfkc s
  lower : ∀ s, (∀ c ∈ s, PyText.isSpace c = true ∨ InNumerals c) → unicode.lower s = s
  digit : ∀ c, PyText.isSpace c = true ∨ InNumerals c → unicode.digit c = Unicode.ascii.digit c
  isAlnum : ∀ c, PyText.isSpace c = true ∨ InNumerals c → unicode.isAlnum c = Unicode.ascii.isAlnum c

/-- Numerals are judged without an error, and right exactly where they are the same number. -/
structure JudgedByNumber (unicode : Unicode) (a b : Written) : Prop where
  left : ∃ form, normalizeAnswer unicode a.text = .ok form
  right : ∃ form, normalizeAnswer unicode b.text = .ok form
  judge : judge unicode (.text a.text) (.text b.text) [] = .ok true ↔ SameNumber a.numeral b.numeral

/-! ## The decimal of a numeral -/

namespace Numeral

variable {n : Numeral}

def decimal (n : Numeral) : Decimal := ⟨digitsValue (n.wholeDigits ++ n.tail.digits), -n.tail.digits.length⟩

/-- The number to the precision of the context. -/
def rounded (n : Numeral) : ℚ := (n.decimal.round context).value

/-- The context keeps the number: a whole one has at most as many digits as it keeps. -/
structure Kept (n : Numeral) : Prop where
  whole : (∃ k : ℕ, n.magnitude = k) → n.magnitude < 10 ^ 28
  large : n.rounded < 10 ^ 1000000

theorem digitsValue_append (xs ys : List (Fin 10)) : digitsValue (xs ++ ys) = digitsValue xs * 10 ^ ys.length + digitsValue ys := by
  unfold digitsValue Decimal.ofDigits
  induction ys using List.reverseRecOn with
  | nil => simp
  | append_singleton ys y ih =>
      rw [← List.append_assoc, List.map_append, List.foldl_append, ih, List.map_append, List.foldl_append,
        List.length_append, pow_add]
      simp only [List.map_cons, List.map_nil, List.foldl_cons, List.foldl_nil, List.length_singleton]
      ring

theorem decimal_value (n : Numeral) : n.decimal.value = n.magnitude := by
  have hpos : (10 : ℚ) ^ n.tail.digits.length ≠ 0 := by positivity
  rw [Decimal.value, decimal, magnitude, digitsValue_append, zpow_neg, zpow_natCast]
  push_cast
  field_simp

theorem decimal_exponent_le (n : Numeral) : n.decimal.exponent ≤ 0 := by
  simp [decimal]

end Numeral

theorem context_sound : context.Sound := ⟨by decide, by decide, by decide⟩

/-! ## The canonical form of a number -/

section

variable {unicode : Unicode} {n : Numeral}

/-- A tail without its price. -/
def Tail.fractionText : Tail → Str
  | .fraction comma first rest => (if comma then 44 else 46) :: digitText (first :: rest)
  | _ => []

/-- The part of a numeral that the number expression matches. -/
def Numeral.numberText (n : Numeral) : Str := digitText n.lead ++ n.groups.flatMap groupText ++ n.tail.fractionText

theorem mem_digitText {ds : List (Fin 10)} {c : ℕ} (h : c ∈ digitText ds) : 48 ≤ c ∧ c ≤ 57 := by
  obtain ⟨d, -, rfl⟩ := List.mem_map.mp h
  omega

theorem ascii_digit {c : ℕ} (h : 48 ≤ c ∧ c ≤ 57) : Unicode.ascii.digit c = some (c - 48) := by
  simp [Unicode.ascii, h]

theorem digit_of_digit (hu : unicode.OnNumerals) {c : ℕ} (h : 48 ≤ c ∧ c ≤ 57) : unicode.digit c = some (c - 48) := by
  rw [hu.digit c (.inr (.inl h)), ascii_digit h]

theorem map_digit (hu : unicode.OnNumerals) (ds : List (Fin 10)) :
    (digitText ds).map unicode.digit = (ds.map Fin.val).map some := by
  unfold digitText
  rw [List.map_map, List.map_map]
  refine List.map_congr_left fun d _ => ?_
  simp only [Function.comp_apply]
  rw [digit_of_digit hu (by omega), Nat.add_sub_cancel_left]

/-- What `_canonical_number` reads. -/
def plainText (s : Str) : Str := (s.filter (!isApostrophe ·)).map fun c => if c = 44 then 46 else c

theorem plainText_append (s t : Str) : plainText (s ++ t) = plainText s ++ plainText t := by
  simp [plainText]

theorem plainText_digitText (ds : List (Fin 10)) : plainText (digitText ds) = digitText ds := by
  have hfilter : (digitText ds).filter (!isApostrophe ·) = digitText ds := by
    refine List.filter_eq_self.mpr fun c hc => ?_
    have hdigit := mem_digitText hc
    have hne : c ≠ 39 ∧ c ≠ 0x2019 := by omega
    simp [isApostrophe, hne]
  rw [plainText, hfilter]
  refine (List.map_congr_left fun c hc => ?_).trans (List.map_id _)
  have hdigit := mem_digitText hc
  exact if_neg (by omega)

theorem plainText_groups (groups : List (Bool × Fin 10 × Fin 10 × Fin 10)) :
    plainText (groups.flatMap groupText) = digitText (groups.flatMap fun (_, a, b, c) => [a, b, c]) := by
  induction groups with
  | nil => rfl
  | cons g groups ih =>
      obtain ⟨curly, a, b, c⟩ := g
      have hgroup : plainText (groupText (curly, a, b, c)) = digitText [a, b, c] := by
        have hhead : plainText [if curly then 0x2019 else 39] = [] := by cases curly <;> decide
        have happend := plainText_append [if curly then 0x2019 else 39] (digitText [a, b, c])
        rw [hhead, plainText_digitText] at happend
        exact happend
      rw [List.flatMap_cons, plainText_append, hgroup, ih, List.flatMap_cons]
      exact (List.map_append ..).symm

theorem digitText_eq_nil {ds : List (Fin 10)} : digitText ds = [] ↔ ds = [] := List.map_eq_nil_iff

theorem plainText_numberText (n : Numeral) :
    plainText n.numberText =
      digitText n.wholeDigits ++ if digitText n.tail.digits = [] then [] else 46 :: digitText n.tail.digits := by
  rw [Numeral.numberText, plainText_append, plainText_append, plainText_digitText, plainText_groups]
  have hwhole : digitText n.lead ++ digitText (n.groups.flatMap fun (_, a, b, c) => [a, b, c]) = digitText n.wholeDigits :=
    (List.map_append ..).symm
  rw [hwhole]
  refine congrArg _ ?_
  match n.tail with
  | .none => rfl
  | .wholePrice => rfl
  | .fraction comma first rest =>
      have hne : digitText (Tail.fraction comma first rest).digits ≠ [] := fun h => by
        simp [Tail.digits, digitText] at h
      have hhead : plainText [if comma then 44 else 46] = [46] := by cases comma <;> decide
      have happend := plainText_append [if comma then 44 else 46] (digitText (first :: rest))
      rw [hhead, plainText_digitText] at happend
      rw [if_neg hne]
      exact happend

theorem ofText_numberText (hu : unicode.OnNumerals) (n : Numeral) :
    Decimal.ofText unicode.digit (plainText n.numberText) = some n.decimal := by
  have hpoint : 46 ∉ digitText n.wholeDigits := fun h => by
    have hdigit := mem_digitText h
    omega
  have hne : digitText n.wholeDigits ≠ [] := fun h => by
    simp [digitText, Numeral.wholeDigits, Numeral.lead] at h
  rw [plainText_numberText, Decimal.ofText_eq hne (map_digit hu _) (map_digit hu _) hpoint]
  simp [Numeral.decimal, Numeral.digitsValue, digitText]

/-- A whole number that the context keeps is not rounded. -/
theorem rounded_of_whole {k : ℕ} (hk : n.magnitude = k) (hlt : k < 10 ^ 28) : n.rounded = k := by
  rw [← n.decimal_value] at hk
  exact Decimal.round_value_of_whole context_sound n.decimal_exponent_le hk hlt

theorem canonicalNumber_eq (hu : unicode.OnNumerals) (n : Numeral) :
    canonicalNumber unicode n.numberText =
      if n.decimal.value = n.decimal.toIntegralValue.value then Decimal.formatF <$> n.decimal.quantize context 0
      else Decimal.formatF <$> n.decimal.normalize context := by
  unfold canonicalNumber
  dsimp only
  have htext : Decimal.ofText unicode.digit ((n.numberText.filter (!isApostrophe ·)).map fun c => if c = 44 then 46 else c) =
      some n.decimal := ofText_numberText hu n
  rw [htext]

theorem map_formatF_isOk {x : Except Decimal.Signal Decimal} : (∃ t, Decimal.formatF <$> x = .ok t) ↔ ∃ r, x = .ok r := by
  cases x with
  | error e => simp
  | ok r => simp

/-- A number is canonical unless the context does not keep it. -/
theorem canonicalNumber_isOk (hu : unicode.OnNumerals) (n : Numeral) :
    (∃ t, canonicalNumber unicode n.numberText = .ok t) ↔ n.Kept := by
  rw [canonicalNumber_eq hu]
  split
  · rename_i hintegral
    obtain ⟨k, hk⟩ := Decimal.value_eq_toIntegralValue_iff.mp hintegral
    rw [map_formatF_isOk, Decimal.quantize_whole context_sound n.decimal_exponent_le hk]
    rw [n.decimal_value] at hk
    have hprec : n.magnitude < 10 ^ 28 ↔ k < 10 ^ context.prec := by
      rw [hk]
      exact_mod_cast Iff.rfl
    split
    · rename_i hlt
      refine iff_of_true ⟨_, rfl⟩ ⟨fun _ => hprec.mpr hlt, ?_⟩
      rw [rounded_of_whole hk hlt]
      calc (k : ℚ) < 10 ^ 28 := by exact_mod_cast hlt
        _ ≤ 10 ^ 1000000 := pow_le_pow_right₀ (by norm_num) (by norm_num)
    · rename_i hnot
      exact iff_of_false (by simp) fun hkept => hnot (hprec.mp (hkept.whole ⟨k, hk⟩))
  · rename_i hnot
    rw [map_formatF_isOk, Decimal.normalize_isOk_iff context_sound]
    have hnever : ¬ ∃ k : ℕ, n.magnitude = k := fun ⟨k, hk⟩ =>
      hnot (Decimal.value_eq_toIntegralValue_iff.mpr ⟨k, n.decimal_value.trans hk⟩)
    have hbound : (10 : ℚ) ^ (context.emax + 1) = 10 ^ 1000000 := by
      rw [← zpow_natCast]
      rfl
    rw [hbound]
    exact ⟨fun hlt => ⟨fun h => absurd h hnever, hlt⟩, fun hkept => hkept.large⟩

/-- What a canonical number says is the number to the precision of the context. -/
theorem canonicalNumber_spec (hu : unicode.OnNumerals) {t : Str} (h : canonicalNumber unicode n.numberText = .ok t) :
    ∃ r : Decimal, r.Plain ∧ r.value = n.rounded ∧ t = r.formatF := by
  rw [canonicalNumber_eq hu] at h
  split at h
  · rename_i hintegral
    obtain ⟨k, hk⟩ := Decimal.value_eq_toIntegralValue_iff.mp hintegral
    rw [Decimal.quantize_whole context_sound n.decimal_exponent_le hk] at h
    split at h
    · rename_i hlt
      cases h
      refine ⟨⟨k, 0⟩, .inl le_rfl, ?_, rfl⟩
      rw [rounded_of_whole (n.decimal_value ▸ hk) hlt]
      simp [Decimal.value]
    · cases h
  · cases hnormal : n.decimal.normalize context with
    | error e =>
        rw [hnormal] at h
        cases h
    | ok r =>
        rw [hnormal] at h
        cases h
        obtain ⟨hplain, hvalue⟩ := Decimal.normalize_spec context_sound hnormal
        exact ⟨r, hplain, hvalue, rfl⟩

end

/-! ## Blanks -/

section

variable {u v w : Str}

theorem strip_append (hu : ∀ c ∈ u, PyText.isSpace c = true) (hv : ∀ c ∈ v, PyText.isSpace c = true)
    (hw : ∀ c ∈ w, PyText.isSpace c = false) : PyText.strip (u ++ w ++ v) = w := by
  have hend : ∀ {x y : Str}, (∀ c ∈ x, PyText.isSpace c = true) → (∀ c ∈ y.head?, PyText.isSpace c = false) → (x ++ y).dropWhile PyText.isSpace = y := by
    intro x y hx hy
    rw [List.dropWhile_append_of_pos hx]
    cases y with
    | nil => rfl
    | cons c y => rw [List.dropWhile_cons_of_neg (by simp [hy c rfl])]
  unfold PyText.strip
  by_cases hnil : w = []
  · subst hnil
    have hall : ∀ c ∈ u ++ [] ++ v, PyText.isSpace c = true := by
      intro c hc
      rcases List.mem_append.mp hc with h | h
      · exact hu c (by simpa using h)
      · exact hv c h
    rw [List.dropWhile_eq_nil_iff.mpr hall]
    rfl
  · obtain ⟨a, w', rfl⟩ := List.exists_cons_of_ne_nil hnil
    rw [List.append_assoc, hend hu (by simpa using hw a (by simp)), List.reverse_append,
      hend (by simpa using hv), List.reverse_reverse]
    intro c hc
    exact hw c (List.mem_reverse.mp (List.mem_of_mem_head? hc))

theorem whitespace_none {c : Cursor} (h : ∀ x ∈ c.rest.head?, PyText.isSpace x = false) : whitespace.matchAt c = none := by
  have hnil : ends whitespace c = [] := ends_seq_eq_nil (ends_one_eq_nil h)
  simp [matchAt, hnil]

/-- A run of blanks is cut out as one match. -/
theorem cut_blanks (hu : ∀ c ∈ u, PyText.isSpace c = true) (hv : ∀ c ∈ v.head?, PyText.isSpace c = false) (passed : Str) :
    (u = [] ∧ whitespace.cut ⟨passed, u ++ v, []⟩ = whitespace.cut ⟨passed, v, []⟩) ∨
      ∃ m, whitespace.cut ⟨passed, u ++ v, []⟩ = .inr m :: whitespace.cut ⟨List.reverse u ++ passed, v, []⟩ := by
  by_cases hnil : u = []
  · exact .inl ⟨hnil, by rw [hnil, List.nil_append]⟩
  · refine .inr ⟨_, cut_of_match (First.matchAt (.plus_one hnil rfl hu hv) ?_)⟩
    have hlength := List.length_pos_iff.mpr hnil
    simp only [List.length_append]
    omega

/-- Of the blanks around a text at most one is left on each side, and then none. -/
theorem strip_whitespace (hu : ∀ c ∈ u, PyText.isSpace c = true) (hv : ∀ c ∈ v, PyText.isSpace c = true)
    (hw : ∀ c ∈ w, PyText.isSpace c = false) (hne : w ≠ []) :
    PyText.strip (whitespace.subWith (fun _ => [32]) (u ++ w ++ v)) = w := by
  obtain ⟨a, w', rfl⟩ := List.exists_cons_of_ne_nil hne
  have hmiddle : ∀ passed, whitespace.cut ⟨passed, a :: w' ++ v, []⟩ =
      (a :: w').map .inl ++ whitespace.cut ⟨(a :: w').reverse ++ passed, v, []⟩ := by
    intro passed
    refine cut_append fun x y z hxyz => whitespace_none fun c hc => ?_
    cases hc
    exact hw y (hxyz ▸ by simp)
  have hlast : ∀ passed, ∃ post, (∀ c ∈ post, PyText.isSpace c = true) ∧
      (whitespace.cut ⟨passed, v, []⟩).flatMap (Sum.elim (fun x => [x]) fun _ => [32]) = post := by
    intro passed
    have hcut := cut_blanks hv (v := []) (by simp) passed
    rw [List.append_nil, cut_nil (c := ⟨passed, [], []⟩) rfl, cut_nil (c := ⟨List.reverse v ++ passed, [], []⟩) rfl] at hcut
    rcases hcut with ⟨-, hcut⟩ | ⟨m, hcut⟩
    · exact ⟨[], by simp, by rw [hcut]; rfl⟩
    · exact ⟨[32], by decide, by rw [hcut]; rfl⟩
  rw [List.append_assoc, subWith, Cursor.start]
  have hfirst := cut_blanks hu (v := a :: w' ++ v) (by simpa using hw a (by simp)) []
  rcases hfirst with ⟨-, hcut⟩ | ⟨m, hcut⟩
  · obtain ⟨post, hpost, heq⟩ := hlast ((a :: w').reverse ++ [])
    rw [hcut, hmiddle, List.flatMap_append, flatMap_inl, heq]
    exact strip_append (u := []) (by simp) hpost hw
  · obtain ⟨post, hpost, heq⟩ := hlast ((a :: w').reverse ++ (List.reverse u ++ []))
    rw [hcut, hmiddle, List.flatMap_cons, List.flatMap_append, flatMap_inl, heq]
    exact strip_append (u := [32]) (by decide) hpost hw

end

/-! ## The price, the number and the operators -/

section

variable {unicode : Unicode} {c : Cursor} {n : Numeral}

/-- The price expression needs a digit, a point and a dash. -/
theorem wholePrice_none (h : ∀ d y rest, c.rest = d :: 46 :: y :: rest → isDash y = false) :
    (wholePrice unicode).matchAt c = none := by
  refine matchAt_eq_none fun e he => ?_
  obtain ⟨e₁, hdigit, he⟩ := mem_ends_seq.mp he
  obtain ⟨e₂, hpoint, he⟩ := mem_ends_seq.mp he
  obtain ⟨e₃, hdash, -⟩ := mem_ends_seq.mp he
  obtain ⟨e₄, hdash, -⟩ := mem_ends_seq.mp hdash
  obtain ⟨e₀, hone, rfl⟩ := List.mem_map.mp hdigit
  obtain ⟨d, rest, hrest, -, rfl⟩ := mem_ends_one.mp hone
  obtain ⟨x, rest', hrest', hx, rfl⟩ := mem_ends_one.mp hpoint
  obtain ⟨y, rest'', hrest'', hy, -⟩ := mem_ends_one.mp hdash
  simp only at hrest' hrest''
  rw [beq_iff_eq] at hx
  rw [hx, hrest''] at hrest'
  rw [hrest'] at hrest
  rw [h d y rest'' hrest] at hy
  cases hy

/-- A price at the end of a text is cut off behind its last digit. -/
theorem wholePrice_sub {p : Str} {d : ℕ} (hpoint : 46 ∉ p) (hdigit : unicode.isDigit d = true) (hd : d ≠ 46) :
    (wholePrice unicode).subWith (fun m => m.2.group) (p ++ [d, 46, 0x2013]) = p ++ [d] := by
  have hfront : ∀ x y z, p = x ++ y :: z →
      (wholePrice unicode).matchAt ⟨List.reverse x ++ [], y :: z ++ [d, 46, 0x2013], []⟩ = none := by
    intro x y z hp
    refine wholePrice_none fun d' y' rest hrest => ?_
    cases z with
    | nil =>
        simp only [List.cons_append, List.nil_append, List.cons.injEq] at hrest
        exact absurd hrest.2.1 hd
    | cons a z =>
        simp only [List.cons_append, List.cons.injEq] at hrest
        exact absurd (show 46 ∈ p by rw [hp, ← hrest.2.1]; simp) hpoint
  have hfirst : First (wholePrice unicode) ⟨List.reverse p ++ [], [d, 46, 0x2013], []⟩ ⟨0x2013 :: 46 :: d :: (List.reverse p ++ []), [], [d]⟩ := by
    have hgroup := First.group (First.one (c := ⟨List.reverse p ++ [], [d, 46, 0x2013], []⟩) rfl hdigit)
    have hbetween := between_append ⟨List.reverse p ++ [], [d, 46, 0x2013], []⟩ [d] [46, 0x2013] []
    have hdash : First (plus (one isDash)) ⟨46 :: d :: (List.reverse p ++ []), [0x2013], [d]⟩
        ⟨0x2013 :: 46 :: d :: (List.reverse p ++ []), [], [d]⟩ :=
      .plus_one (w := [0x2013]) (by simp) rfl (by decide) (by simp)
    refine .seq hgroup (.seq (.one rfl rfl) (.seq ?_ (.notAhead (ends_one_eq_nil (by simp)))))
    simp only [List.reverse_cons, List.reverse_nil, List.nil_append, List.singleton_append] at hbetween
    rw [hbetween]
    exact hdash
  rw [subWith, Cursor.start, cut_append hfront, cut_of_match (hfirst.matchAt (by simp)), cut_nil rfl, List.flatMap_append,
    flatMap_inl]
  rfl

theorem isDigit_of_mem (hu : unicode.OnNumerals) {ds : List (Fin 10)} {x : ℕ} (h : x ∈ digitText ds) :
    unicode.isDigit x = true := by
  rw [Unicode.isDigit, digit_of_digit hu (mem_digitText h)]
  rfl

/-- What is not an ASCII digit in a numeral is no digit. -/
theorem isDigit_eq_false (hu : unicode.OnNumerals) {x : ℕ} (h : x ∈ [45, 0x2212, 39, 0x2019, 44, 46, 0x2013]) :
    unicode.isDigit x = false := by
  rw [Unicode.isDigit, hu.digit x (.inr (.inr h))]
  revert h x
  decide

theorem first_groups (hu : unicode.OnNumerals) {groups : List (Bool × Fin 10 × Fin 10 × Fin 10)} {rest : Str}
    (hstop : ∀ x ∈ rest.head?, isApostrophe x = false) {c : Cursor} (hrest : c.rest = groups.flatMap groupText ++ rest) :
    First (star (all [one isApostrophe, one unicode.isDigit, one unicode.isDigit, one unicode.isDigit])) c
      ⟨(groups.flatMap groupText).reverse ++ c.passed, rest, c.group⟩ := by
  induction groups generalizing c with
  | nil =>
      obtain ⟨passed, left, group⟩ := c
      cases hrest
      exact .star_none (ends_seq_eq_nil (ends_one_eq_nil hstop))
  | cons g groups ih =>
      obtain ⟨curly, a, b, d⟩ := g
      have hdigit : ∀ x ∈ digitText [a, b, d], unicode.isDigit x = true := fun x hx => isDigit_of_mem hu hx
      have hone : First (all [one isApostrophe, one unicode.isDigit, one unicode.isDigit, one unicode.isDigit]) c
          ⟨(groupText (curly, a, b, d)).reverse ++ c.passed, groups.flatMap groupText ++ rest, c.group⟩ := by
        have hopen : c.rest = (if curly then 0x2019 else 39) :: (digitText [a, b, d] ++ (groups.flatMap groupText ++ rest)) := by
          rw [hrest, List.flatMap_cons, List.append_assoc]
          rfl
        refine .seq (.one hopen (by cases curly <;> decide)) (.seq (.one rfl (hdigit _ (by simp [digitText])))
          (.seq (.one rfl (hdigit _ (by simp [digitText]))) (.one rfl (hdigit _ (by simp [digitText])))))
      have hlater := ih (c := ⟨(groupText (curly, a, b, d)).reverse ++ c.passed, groups.flatMap groupText ++ rest, c.group⟩) rfl
      rw [List.flatMap_cons, List.reverse_append, List.append_assoc]
      refine .star hone ?_ hlater
      rw [hrest, List.flatMap_cons]
      simp [groupText] <;> omega

theorem first_boundary {p : ℕ → Bool} (h : c.passed.head?.any p = false) (hrest : c.rest.head?.any p = true) :
    First (boundary p) c c := by
  simp [First, ends, h, hrest]

theorem Tail.fractionText_cases (tail : Tail) :
    tail.fractionText = [] ∨ ∃ x ds, tail.fractionText = x :: digitText ds ∧ ds ≠ [] ∧ x ∈ [44, 46] := by
  match tail with
  | .none => exact .inl rfl
  | .wholePrice => exact .inl rfl
  | .fraction comma first rest => exact .inr ⟨_, first :: rest, rfl, by simp, by cases comma <;> decide⟩

theorem isApostrophe_fraction (tail : Tail) : ∀ x ∈ tail.fractionText.head?, isApostrophe x = false := by
  have hseparator : ∀ x ∈ [44, 46], isApostrophe x = false := by decide
  rcases tail.fractionText_cases with hnil | ⟨x, ds, hcons, -, hx⟩
  · simp [hnil]
  · rw [hcons]
    intro y hy
    cases hy
    exact hseparator x hx

/-- The digits in front end at an apostrophe or a separator. -/
theorem isDigit_behind_lead (hu : unicode.OnNumerals) (n : Numeral) :
    ∀ x ∈ (n.groups.flatMap groupText ++ n.tail.fractionText).head?, unicode.isDigit x = false := by
  have hseparator : ∀ x ∈ [44, 46], x ∈ [45, 0x2212, 39, 0x2019, 44, 46, 0x2013] := by decide
  cases n.groups with
  | nil =>
      rcases n.tail.fractionText_cases with hnil | ⟨x, ds, hcons, -, hx⟩
      · simp [hnil]
      · rw [hcons]
        intro y hy
        cases hy
        exact isDigit_eq_false hu (hseparator x hx)
  | cons g groups =>
      obtain ⟨curly, a, b, d⟩ := g
      intro y hy
      cases hy
      exact isDigit_eq_false hu (by cases curly <;> decide)

theorem first_fraction (hu : unicode.OnNumerals) (tail : Tail) (passed : Str) :
    First (opt (seq (one isSeparator) (plus (one unicode.isDigit)))) ⟨passed, tail.fractionText, []⟩
      ⟨tail.fractionText.reverse ++ passed, [], []⟩ := by
  have hseparator : ∀ x ∈ [44, 46], isSeparator x = true := by decide
  rcases tail.fractionText_cases with hnil | ⟨x, ds, hcons, hne, hx⟩
  · rw [hnil]
    exact .opt_none (ends_seq_eq_nil (ends_one_eq_nil (by simp)))
  · have hone : First (one isSeparator) ⟨passed, x :: digitText ds, []⟩ ⟨x :: passed, digitText ds, []⟩ :=
      .one rfl (hseparator x hx)
    have hmore : First (plus (one unicode.isDigit)) ⟨x :: passed, digitText ds, []⟩
        ⟨(digitText ds).reverse ++ x :: passed, [], []⟩ :=
      .plus_one (by simpa [digitText] using hne) (List.append_nil _).symm (fun y hy => isDigit_of_mem hu hy) (by simp)
    rw [hcons, List.reverse_cons, List.append_assoc]
    exact .opt (hone.seq hmore)

/-- A numeral behind its sign is one match. -/
theorem first_number (hu : unicode.OnNumerals) (n : Numeral) {passed : Str} (hpassed : ∀ x ∈ passed.head?, x = 45) :
    First (number unicode) ⟨passed, n.numberText, []⟩ ⟨n.numberText.reverse ++ passed, [], []⟩ := by
  have hlead : ∀ x ∈ digitText n.lead, unicode.isDigit x = true := fun x hx => isDigit_of_mem hu hx
  have hbefore : passed.head?.any (fun c => unicode.isDigit c || isSeparator c) = false := by
    cases passed with
    | nil => rfl
    | cons x passed =>
        cases hpassed x rfl
        simp [isDigit_eq_false hu (x := 45) (by decide), isSeparator]
  have hafter : (n.numberText).head?.any (fun c => unicode.isDigit c || isSeparator c) = true := by
    have hfirst := hlead (48 + n.first.val) (by simp [digitText, Numeral.lead])
    simp [Numeral.numberText, digitText, Numeral.lead, hfirst]
  have hplus : First (plus (one unicode.isDigit)) ⟨passed, n.numberText, []⟩
      ⟨(digitText n.lead).reverse ++ passed, n.groups.flatMap groupText ++ n.tail.fractionText, []⟩ :=
    .plus_one (by simp [digitText, Numeral.lead]) (List.append_assoc ..) hlead (isDigit_behind_lead hu n)
  have hstar : First (star (all [one isApostrophe, one unicode.isDigit, one unicode.isDigit, one unicode.isDigit]))
      ⟨(digitText n.lead).reverse ++ passed, n.groups.flatMap groupText ++ n.tail.fractionText, []⟩
      ⟨(n.groups.flatMap groupText).reverse ++ ((digitText n.lead).reverse ++ passed), n.tail.fractionText, []⟩ :=
    first_groups hu (isApostrophe_fraction n.tail) rfl
  have hend : ∀ before, First (notAhead (one fun c => unicode.isDigit c || isApostrophe c)) ⟨before, [], []⟩ ⟨before, [], []⟩ :=
    fun before => .notAhead (ends_one_eq_nil (by simp))
  have hall := (first_boundary hbefore hafter).seq (hplus.seq (hstar.seq ((first_fraction hu n.tail _).seq (hend _))))
  have htext : n.tail.fractionText.reverse ++ ((n.groups.flatMap groupText).reverse ++ ((digitText n.lead).reverse ++ passed)) =
      n.numberText.reverse ++ passed := by
    simp [Numeral.numberText]
  rw [← htext]
  exact hall

/-- No number begins at a minus sign. -/
theorem number_none (hu : unicode.OnNumerals) {rest : Str} (hrest : c.rest = 45 :: rest) :
    (number unicode).matchAt c = none := by
  refine matchAt_eq_none fun e he => ?_
  obtain ⟨e₁, hboundary, he⟩ := mem_ends_seq.mp he
  obtain ⟨e₂, hplus, -⟩ := mem_ends_seq.mp he
  obtain ⟨e₃, hone, -⟩ := mem_ends_seq.mp hplus
  have hsame : e₁ = c := by
    unfold ends at hboundary
    split at hboundary
    · cases hboundary
    · exact List.mem_singleton.mp hboundary
  obtain ⟨x, rest', hrest', hx, -⟩ := mem_ends_one.mp hone
  rw [hsame, hrest] at hrest'
  cases hrest'
  rw [isDigit_eq_false hu (by decide)] at hx
  cases hx

/-- The hyphen of a numeral with a sign. -/
def Numeral.hyphen (n : Numeral) : Str := if n.sign.isSome then [45] else []

theorem number_sub (hu : unicode.OnNumerals) (n : Numeral) :
    (number unicode).subWithM (fun m => canonicalNumber unicode (matched m)) (n.hyphen ++ n.numberText) =
      (n.hyphen ++ ·) <$> canonicalNumber unicode n.numberText := by
  have hpos : 0 < n.numberText.length := by
    simp [Numeral.numberText, digitText, Numeral.lead]
  have hmatched : ∀ passed, matched (⟨passed, n.numberText, []⟩, ⟨n.numberText.reverse ++ passed, [], []⟩) = n.numberText :=
    fun passed => between_append ⟨passed, n.numberText, []⟩ n.numberText [] []
  have hcut : ∀ passed : Str, (∀ x ∈ passed.head?, x = 45) → (number unicode).cut ⟨passed, n.numberText, []⟩ =
      [.inr (⟨passed, n.numberText, []⟩, ⟨n.numberText.reverse ++ passed, [], []⟩)] := by
    intro passed hpassed
    rw [cut_of_match ((first_number hu n hpassed).matchAt hpos), cut_nil rfl]
  unfold subWithM Cursor.start Numeral.hyphen
  cases n.sign with
  | none =>
      simp only [Option.isSome_none, Bool.false_eq_true, if_false, List.nil_append]
      rw [hcut [] (by simp)]
      simp only [List.mapM_cons, List.mapM_nil, Sum.elim_inr, hmatched]
      cases canonicalNumber unicode n.numberText with
      | error e => rfl
      | ok t => simp [bind, Except.bind, pure, Except.pure]
  | some sign =>
      simp only [Option.isSome_some, if_true, List.singleton_append]
      rw [cut_of_none (number_none hu rfl) rfl, hcut [45] (by simp)]
      simp only [List.mapM_cons, List.mapM_nil, Sum.elim_inr, Sum.elim_inl, hmatched]
      cases canonicalNumber unicode n.numberText with
      | error e => rfl
      | ok t => simp [bind, Except.bind, pure, Except.pure]

/-- The digits before the fraction, as they are written. -/
def Numeral.frontText (n : Numeral) : Str := digitText n.lead ++ n.groups.flatMap groupText

theorem mem_frontText {x : ℕ} (h : x ∈ n.frontText) : (48 ≤ x ∧ x ≤ 57) ∨ x = 39 ∨ x = 0x2019 := by
  rcases List.mem_append.mp h with hlead | hgroup
  · exact .inl (mem_digitText hlead)
  · obtain ⟨⟨curly, a, b, c⟩, -, hx⟩ := List.mem_flatMap.mp hgroup
    rcases List.mem_cons.mp hx with rfl | hdigit
    · cases curly
      · exact .inr (.inl rfl)
      · exact .inr (.inr rfl)
    · exact .inl (mem_digitText hdigit)

theorem frontText_eq_concat (n : Numeral) : ∃ p d, n.frontText = p ++ [d] ∧ 48 ≤ d ∧ d ≤ 57 := by
  unfold Numeral.frontText
  rcases n.groups.eq_nil_or_concat with hnil | ⟨groups, ⟨curly, a, b, c⟩, hconcat⟩
  · have hne : n.lead ≠ [] := List.cons_ne_nil n.first n.rest
    obtain ⟨ds, d, hlead⟩ := n.lead.eq_nil_or_concat.resolve_left hne
    refine ⟨digitText ds, 48 + d.val, ?_, by omega, by omega⟩
    rw [hnil, hlead]
    simp [digitText]
  · refine ⟨digitText n.lead ++ groups.flatMap groupText ++ [if curly then 0x2019 else 39, 48 + a.val, 48 + b.val],
      48 + c.val, ?_, by omega, by omega⟩
    rw [hconcat]
    simp [groupText, digitText]

theorem mem_fractionText {tail : Tail} {x : ℕ} (h : x ∈ tail.fractionText) : (48 ≤ x ∧ x ≤ 57) ∨ x = 44 ∨ x = 46 := by
  rcases tail.fractionText_cases with hnil | ⟨y, ds, hcons, -, hy⟩
  · rw [hnil] at h
    cases h
  · rw [hcons] at h
    rcases List.mem_cons.mp h with rfl | hdigit
    · simpa using Or.inr (a := 48 ≤ x ∧ x ≤ 57) hy
    · exact .inl (mem_digitText hdigit)

theorem mem_hyphen {x : ℕ} (h : x ∈ n.hyphen) : x = 45 := by
  unfold Numeral.hyphen at h
  split at h
  · exact List.mem_singleton.mp h
  · cases h

/-- The price is cut off, and nothing else is. -/
theorem wholePrice_numeral (hu : unicode.OnNumerals) (n : Numeral) :
    (wholePrice unicode).subWith (fun m => m.2.group) (n.hyphen ++ n.body) = n.hyphen ++ n.numberText := by
  have hbody : n.body = n.frontText ++ n.tail.text := rfl
  have hnumber : n.numberText = n.frontText ++ n.tail.fractionText := rfl
  by_cases hprice : n.tail = .wholePrice
  · obtain ⟨p, d, hfront, hd⟩ := frontText_eq_concat n
    have hpoint : 46 ∉ n.hyphen ++ p := by
      intro hmem
      rcases List.mem_append.mp hmem with hhyphen | hp
      · exact absurd (mem_hyphen hhyphen) (by decide)
      · have hchar := mem_frontText (n := n) (x := 46) (by rw [hfront]; simp [hp])
        omega
    have hdigit : unicode.isDigit d = true := by
      rw [Unicode.isDigit, digit_of_digit hu hd]
      rfl
    have hsub := wholePrice_sub hpoint hdigit (by omega)
    rw [hbody, hnumber, hprice, hfront]
    simpa [Tail.text, Tail.fractionText] using hsub
  · have htail : n.tail.text = n.tail.fractionText := by
      match h : n.tail with
      | .none => rfl
      | .fraction .. => rfl
      | .wholePrice => exact absurd h hprice
    rw [hbody, htail, ← hnumber]
    refine subWith_of_forall fun u y v huv => wholePrice_none fun d z rest hrest => ?_
    change y :: v = d :: 46 :: z :: rest at hrest
    rw [hrest] at huv
    have hz : z ∈ n.numberText := by
      unfold Numeral.hyphen at huv
      split at huv
      · cases u with
        | nil =>
            have hbehind : n.numberText = 46 :: z :: rest := (List.cons.inj huv).2
            simp [hbehind]
        | cons x u =>
            have hbehind : n.numberText = u ++ d :: 46 :: z :: rest := (List.cons.inj huv).2
            simp [hbehind]
      · rw [List.nil_append] at huv
        rw [huv]
        simp
    have hnodash : z ≠ 45 ∧ z ≠ 0x2013 ∧ z ≠ 0x2014 := by
      rw [hnumber] at hz
      rcases List.mem_append.mp hz with hfront | hfraction
      · have hchar := mem_frontText hfront
        omega
      · have hchar := mem_fractionText hfraction
        omega
    simp [isDash, hnodash]

theorem operatorSpacing_none (h : ∀ x ∈ c.rest, isOperator x = false) : operatorSpacing.matchAt c = none := by
  refine matchAt_eq_none fun e he => ?_
  obtain ⟨e₁, hblanks, he⟩ := mem_ends_seq.mp he
  obtain ⟨e₂, hgroup, -⟩ := mem_ends_seq.mp he
  obtain ⟨e₃, hone, -⟩ := List.mem_map.mp hgroup
  obtain ⟨w, rest, hrest, -, rfl⟩ := mem_ends_star_one.mp hblanks
  obtain ⟨x, rest', hrest', hx, -⟩ := mem_ends_one.mp hone
  simp only at hrest'
  rw [h x (by rw [hrest, hrest']; simp)] at hx
  cases hx

theorem digitThenLetter_none (h : ∀ x ∈ c.rest, unicode.isLetter x = false) : (digitThenLetter unicode).matchAt c = none := by
  refine matchAt_eq_none fun e he => ?_
  obtain ⟨e₁, hgroup, he⟩ := mem_ends_seq.mp he
  obtain ⟨e₂, hone, rfl⟩ := List.mem_map.mp hgroup
  obtain ⟨d, rest, hrest, -, rfl⟩ := mem_ends_one.mp hone
  obtain ⟨x, rest', hrest', hx, -⟩ := mem_ends_one.mp he
  simp only at hrest'
  rw [h x (by rw [hrest, hrest']; simp)] at hx
  cases hx

/-- The hyphen of a number stays. -/
theorem operatorSpacing_numeral (n : Numeral) {t : Str} (ht : ∀ x ∈ t, isOperator x = false ∧ PyText.isSpace x = false) :
    operatorSpacing.subWith (fun m => m.2.group) (n.hyphen ++ t) = n.hyphen ++ t := by
  have hnone : ∀ u y v, t = u ++ y :: v → ∀ passed, operatorSpacing.matchAt ⟨passed, y :: v, []⟩ = none := by
    intro u y v huv passed
    exact operatorSpacing_none fun x hx => (ht x (by rw [huv]; exact List.mem_append_right _ hx)).1
  unfold Numeral.hyphen
  split
  · have hgroup := First.group (First.one (p := isOperator) (c := ⟨[], 45 :: t, []⟩) rfl (by decide))
    have hstop : ∀ x ∈ t.head?, PyText.isSpace x = false := fun x hx => (ht x (List.mem_of_mem_head? hx)).2
    have hfirst : First operatorSpacing ⟨[], 45 :: t, []⟩ ⟨[45], t, [45]⟩ := by
      refine .seq (.star_one (w := []) rfl (by simp) (by simp; decide)) (.seq hgroup ?_)
      exact .star_one (w := []) rfl (by simp) hstop
    have hcut : operatorSpacing.cut ⟨[], 45 :: t, []⟩ = .inr (⟨[], 45 :: t, []⟩, ⟨[45], t, [45]⟩) :: t.map .inl := by
      rw [cut_of_match (hfirst.matchAt (by simp))]
      exact congrArg _ (cut_of_forall fun u y v huv => hnone u y v huv _)
    rw [List.singleton_append, subWith, Cursor.start, hcut, List.flatMap_cons, flatMap_inl]
    rfl
  · exact subWith_of_forall fun u y v huv => hnone u y v huv _

theorem digit_plain {x : ℕ} (h : 48 ≤ x ∧ x ≤ 57) : PyText.isSpace x = false ∧ isOperator x = false := by
  have hall : ∀ d < 10, PyText.isSpace (48 + d) = false ∧ isOperator (48 + d) = false := by decide
  obtain ⟨d, hd, rfl⟩ : ∃ d, d < 10 ∧ x = 48 + d := ⟨x - 48, by omega, by omega⟩
  exact hall d hd

/-- A number in full holds no letter and no blank. -/
theorem formatF_plain (hu : unicode.OnNumerals) (r : Decimal) {x : ℕ} (h : x ∈ n.hyphen ++ r.formatF) :
    unicode.isLetter x = false ∧ PyText.isSpace x = false := by
  have hchar : (48 ≤ x ∧ x ≤ 57) ∨ x = 45 ∨ x = 46 := by
    rcases List.mem_append.mp h with hhyphen | hnumber
    · exact .inr (.inl (mem_hyphen hhyphen))
    · exact (Decimal.mem_formatF hnumber).imp_right .inr
  rcases hchar with hdigit | hmark
  · refine ⟨?_, ?_⟩
    · simp [Unicode.isLetter, Unicode.isDigit, digit_of_digit hu hdigit]
    · exact (digit_plain hdigit).1
  · have hin : InNumerals x := .inr (by rcases hmark with rfl | rfl <;> decide)
    refine ⟨?_, ?_⟩
    · rw [Unicode.isLetter, hu.isAlnum x (.inr hin)]
      rcases hmark with rfl | rfl <;> rfl
    · rcases hmark with rfl | rfl <;> rfl

theorem isOperator_formatF (r : Decimal) {x : ℕ} (h : x ∈ r.formatF) : isOperator x = false := by
  rcases Decimal.mem_formatF h with hdigit | rfl
  · exact (digit_plain hdigit).2
  · rfl

/-- What comes behind the number leaves it. -/
theorem finish_numeral (hu : unicode.OnNumerals) (n : Numeral) (r : Decimal) :
    PyText.strip (withoutFullStops ((digitThenLetter unicode).subWith (fun m => m.2.group ++ 32 :: (matched m).drop m.2.group.length)
      (operatorSpacing.subWith (fun m => m.2.group) (n.hyphen ++ r.formatF)))) = n.hyphen ++ r.formatF := by
  have hplain : ∀ x ∈ n.hyphen ++ r.formatF, unicode.isLetter x = false ∧ PyText.isSpace x = false :=
    fun x hx => formatF_plain hu r hx
  rw [operatorSpacing_numeral n fun x hx => ⟨isOperator_formatF r hx, (hplain x (List.mem_append_right _ hx)).2⟩]
  have hletter : ∀ u y v, n.hyphen ++ r.formatF = u ++ y :: v →
      (digitThenLetter unicode).matchAt ⟨List.reverse u, y :: v, []⟩ = none := by
    intro u y v huv
    exact digitThenLetter_none fun x hx => (hplain x (by rw [huv]; exact List.mem_append_right _ hx)).1
  rw [subWith_of_forall hletter]
  have hstops : withoutFullStops (n.hyphen ++ r.formatF) = n.hyphen ++ r.formatF := by
    obtain ⟨s, x, hconcat, hx⟩ := r.formatF_eq_concat
    have hne : x ≠ 46 := by omega
    rw [withoutFullStops, hconcat, ← List.append_assoc, List.reverse_append, List.reverse_singleton, List.singleton_append,
      List.dropWhile_cons_of_neg (by simpa using hne), List.reverse_cons, List.reverse_reverse]
  have hstrip := strip_append (u := []) (v := []) (w := n.hyphen ++ r.formatF) (by simp) (by simp) fun x hx => (hplain x hx).2
  rw [hstops]
  simpa using hstrip

end

/-! ## From the text to the numeral -/

section

variable {unicode : Unicode}

theorem mem_body {n : Numeral} {x : ℕ} (h : x ∈ n.body) : (48 ≤ x ∧ x ≤ 57) ∨ x ∈ [39, 0x2019, 44, 46, 0x2013] := by
  rcases List.mem_append.mp h with hfront | htail
  · rcases mem_frontText hfront with hdigit | rfl | rfl
    · exact .inl hdigit
    · exact .inr (by decide)
    · exact .inr (by decide)
  · cases ht : n.tail with
    | none => simp [ht, Tail.text] at htail
    | wholePrice =>
        have hprice : x = 46 ∨ x = 0x2013 := by simpa [ht, Tail.text] using htail
        rcases hprice with rfl | rfl
        · exact .inr (by decide)
        · exact .inr (by decide)
    | fraction comma first rest =>
        rw [ht] at htail
        have hfraction : x ∈ (Tail.fraction comma first rest).fractionText := htail
        rcases mem_fractionText hfraction with hdigit | rfl | rfl
        · exact .inl hdigit
        · exact .inr (by decide)
        · exact .inr (by decide)

theorem mem_numeralText {n : Numeral} {x : ℕ} (h : x ∈ n.text) : InNumerals x := by
  have hmarks : ∀ x ∈ [39, 0x2019, 44, 46, 0x2013], x ∈ [45, 0x2212, 39, 0x2019, 44, 46, 0x2013] := by decide
  rcases List.mem_append.mp h with hsign | hbody
  · cases hs : n.sign with
    | none => simp [hs] at hsign
    | some sign =>
        cases sign <;> simp [hs, Sign.text] at hsign <;> rw [hsign] <;> exact .inr (by decide)
  · exact (mem_body hbody).imp_right (hmarks x)

/-- What a code point becomes before it is judged. -/
def folded (c : ℕ) : ℕ :=
  minusSigns (if c = 0xa0 || (0x2000 ≤ c && c ≤ 0x200a) || c = 0x202f || c = 0x205f || c = 0x3000 then 32 else c)

theorem isSpace_folded {c : ℕ} (h : PyText.isSpace c = true) : PyText.isSpace (folded c) = true := by
  unfold folded
  split
  · rfl
  · have hne : c ≠ 0x2212 ∧ c ≠ 0x2044 ∧ c ≠ 0x2215 := by
      refine ⟨?_, ?_, ?_⟩ <;> rintro rfl <;> exact absurd h (by decide)
    unfold minusSigns
    split <;> simp_all

theorem folded_of_inNumerals {c : ℕ} (h : InNumerals c) : folded c = if c = 0x2212 then 45 else c := by
  rcases h with hdigit | hmark
  · have hall : ∀ d < 10, folded (48 + d) = if 48 + d = 0x2212 then 45 else 48 + d := by decide
    obtain ⟨d, hd, rfl⟩ : ∃ d, d < 10 ∧ c = 48 + d := ⟨c - 48, by omega, by omega⟩
    exact hall d hd
  · have hall : ∀ c ∈ [45, 0x2212, 39, 0x2019, 44, 46, 0x2013], folded c = if c = 0x2212 then 45 else c := by decide
    exact hall c hmark

/-- Only the minus sign of a numeral is folded. -/
theorem map_folded (n : Numeral) : n.text.map folded = n.hyphen ++ n.body := by
  have hbody : n.body.map folded = n.body := by
    refine (List.map_congr_left fun x hx => ?_).trans (List.map_id _)
    rw [folded_of_inNumerals (mem_numeralText (List.mem_append_right _ hx)), if_neg]
    · rfl
    · rintro rfl
      exact absurd (mem_body hx) (by decide)
  have hsign : ((n.sign.map Sign.text).getD []).map folded = n.hyphen := by
    unfold Numeral.hyphen
    cases n.sign with
    | none => rfl
    | some sign => cases sign <;> decide
  rw [Numeral.text, List.map_append, hbody, hsign]

theorem lower_folded (hu : unicode.OnNumerals) (w : Written) :
    unicode.lower ((unicode.nfkc w.text).map minusSigns) =
      w.before.map folded ++ (w.numeral.hyphen ++ w.numeral.body) ++ w.after.map folded := by
  have hchars : ∀ c ∈ w.text, PyText.isSpace c = true ∨ InNumerals c := by
    intro c hc
    rcases List.mem_append.mp hc with hc | hafter
    · rcases List.mem_append.mp hc with hbefore | hnumeral
      · exact .inl (w.isSpace_before c hbefore)
      · exact .inr (mem_numeralText hnumeral)
    · exact .inl (w.isSpace_after c hafter)
  have hfolded : (unicode.nfkc w.text).map minusSigns = w.text.map folded := by
    rw [hu.nfkc _ hchars]
    exact List.map_map ..
  have hstill : ∀ c ∈ w.text.map folded, PyText.isSpace c = true ∨ InNumerals c := by
    intro c hc
    obtain ⟨x, hx, rfl⟩ := List.mem_map.mp hc
    rcases hchars x hx with hspace | hin
    · exact .inl (isSpace_folded hspace)
    · rw [folded_of_inNumerals hin]
      split
      · exact .inr (.inr (by decide))
      · exact .inr hin
  rw [hfolded, hu.lower _ hstill, Written.text, List.map_append, List.map_append, map_folded]

/-- A numeral is normalised to its hyphen and its canonical number. -/
theorem normalizeAnswer_written (hu : unicode.OnNumerals) (w : Written) :
    normalizeAnswer unicode w.text = (w.numeral.hyphen ++ ·) <$> canonicalNumber unicode w.numeral.numberText := by
  have hbefore : ∀ c ∈ w.before.map folded, PyText.isSpace c = true := by
    intro c hc
    obtain ⟨x, hx, rfl⟩ := List.mem_map.mp hc
    exact isSpace_folded (w.isSpace_before x hx)
  have hafter : ∀ c ∈ w.after.map folded, PyText.isSpace c = true := by
    intro c hc
    obtain ⟨x, hx, rfl⟩ := List.mem_map.mp hc
    exact isSpace_folded (w.isSpace_after x hx)
  have hplain : ∀ c ∈ w.numeral.hyphen ++ w.numeral.body, PyText.isSpace c = false := by
    have hmarks : ∀ c ∈ [39, 0x2019, 44, 46, 0x2013], PyText.isSpace c = false := by decide
    intro c hc
    rcases List.mem_append.mp hc with hhyphen | hbody
    · rw [mem_hyphen hhyphen]
      rfl
    · exact (mem_body hbody).elim (fun hdigit => (digit_plain hdigit).1) (hmarks c)
  have hne : w.numeral.hyphen ++ w.numeral.body ≠ [] := by
    simp [Numeral.body, digitText, Numeral.lead]
  unfold normalizeAnswer
  rw [lower_folded hu]
  dsimp only
  rw [strip_whitespace hbefore hafter hplain hne, wholePrice_numeral hu, number_sub hu]
  cases hcanonical : canonicalNumber unicode w.numeral.numberText with
  | error e => rfl
  | ok t =>
      obtain ⟨r, -, -, rfl⟩ := canonicalNumber_spec hu hcanonical
      exact congrArg Except.ok (finish_numeral hu w.numeral r)

end

/-! ## Judging numerals -/

section

variable {unicode : Unicode}

theorem Numeral.magnitude_nonneg (n : Numeral) : 0 ≤ n.magnitude :=
  add_nonneg (Nat.cast_nonneg _) (div_nonneg (Nat.cast_nonneg _) (by positivity))

theorem sameNumber_iff {a b : Numeral} :
    SameNumber a b ↔ a.sign.isSome = b.sign.isSome ∧ a.magnitude = b.magnitude := by
  have ha := a.magnitude_nonneg
  have hb := b.magnitude_nonneg
  unfold SameNumber Numeral.rational
  cases a.sign with
  | none =>
      cases b.sign with
      | none => simp
      | some =>
          simp only [Option.isSome_none, Option.isSome_some, Bool.false_eq_true, if_true, if_false, false_and, iff_false]
          rintro ⟨hsame, hzero⟩
          exact absurd (hzero (by linarith)) (by decide)
  | some =>
      cases b.sign with
      | none =>
          simp only [Option.isSome_none, Option.isSome_some, Bool.true_eq_false, Bool.false_eq_true, if_true, if_false,
            false_and, iff_false]
          rintro ⟨hsame, hzero⟩
          exact absurd (hzero (by linarith)) (by decide)
      | some => simp

theorem hyphen_append_inj {a b : Numeral} {s t : Str} (hs : ∃ r : Decimal, s = r.formatF) (ht : ∃ r : Decimal, t = r.formatF) :
    a.hyphen ++ s = b.hyphen ++ t ↔ a.sign.isSome = b.sign.isSome ∧ s = t := by
  have hhead : ∀ {u : Str} {v : Str}, (∃ r : Decimal, u = r.formatF) → u ≠ 45 :: v := by
    rintro u v ⟨r, rfl⟩ heq
    have hchar := Decimal.mem_formatF (d := r) (c := 45) (by rw [heq]; simp)
    omega
  unfold Numeral.hyphen
  cases a.sign <;> cases b.sign <;> simp [hhead hs, (hhead ht).symm]

theorem normalizeAnswer_isOk (hu : unicode.OnNumerals) (w : Written) :
    (∃ form, normalizeAnswer unicode w.text = .ok form) ↔ w.numeral.Kept := by
  rw [normalizeAnswer_written hu, ← canonicalNumber_isOk hu]
  cases canonicalNumber unicode w.numeral.numberText with
  | error e => simp
  | ok t => simp

/-- What is judged of two numerals that the context keeps is their sign and their number
to its precision. -/
theorem judge_numerals (hu : unicode.OnNumerals) {a b : Written} (ha : a.numeral.Kept) (hb : b.numeral.Kept) :
    judge unicode (.text a.text) (.text b.text) [] = .ok true ↔
      a.numeral.sign.isSome = b.numeral.sign.isSome ∧ a.numeral.rounded = b.numeral.rounded := by
  obtain ⟨s, hs⟩ := (canonicalNumber_isOk hu _).mpr ha
  obtain ⟨t, ht⟩ := (canonicalNumber_isOk hu _).mpr hb
  obtain ⟨r, hplain, hvalue, rfl⟩ := canonicalNumber_spec hu hs
  obtain ⟨r', hplain', hvalue', rfl⟩ := canonicalNumber_spec hu ht
  have hleft : normalizeAnswer unicode a.text = .ok (a.numeral.hyphen ++ r.formatF) := by
    rw [normalizeAnswer_written hu, hs]
    rfl
  have hright : normalizeAnswer unicode b.text = .ok (b.numeral.hyphen ++ r'.formatF) := by
    rw [normalizeAnswer_written hu, ht]
    rfl
  have hne : a.numeral.hyphen ++ r.formatF ≠ [] := by
    obtain ⟨u, x, hconcat, -⟩ := r.formatF_eq_concat
    simp [hconcat]
  have hjudge : judge unicode (.text a.text) (.text b.text) [] =
      .ok (decide (a.numeral.hyphen ++ r.formatF = b.numeral.hyphen ++ r'.formatF)) := by
    simp only [judge, normalized, hleft, hright, List.anyM, bind, Except.bind, pure, Except.pure, if_neg hne]
    split <;> simp_all
  rw [hjudge, Except.ok.injEq, decide_eq_true_iff, hyphen_append_inj ⟨r, rfl⟩ ⟨r', rfl⟩,
    Decimal.formatF_eq_iff hplain hplain', hvalue, hvalue']

/-- Two numerals are judged by their numbers exactly when the context keeps both and
does not round two numbers to one. -/
theorem judged_by_number_iff (unicode : Unicode) (hu : unicode.OnNumerals) (a b : Written) :
    JudgedByNumber unicode a b ↔ a.numeral.Kept ∧ b.numeral.Kept ∧
      (a.numeral.sign.isSome = b.numeral.sign.isSome → a.numeral.rounded = b.numeral.rounded →
        a.numeral.magnitude = b.numeral.magnitude) := by
  have hrounded : a.numeral.magnitude = b.numeral.magnitude → a.numeral.rounded = b.numeral.rounded := by
    intro hsame
    refine Decimal.round_congr ?_
    rw [Numeral.decimal_value, Numeral.decimal_value, hsame]
  constructor
  · intro h
    have ha := (normalizeAnswer_isOk hu a).mp h.left
    have hb := (normalizeAnswer_isOk hu b).mp h.right
    refine ⟨ha, hb, fun hsign hround => ?_⟩
    exact (sameNumber_iff.mp (h.judge.mp ((judge_numerals hu ha hb).mpr ⟨hsign, hround⟩))).2
  · rintro ⟨ha, hb, hexact⟩
    refine ⟨(normalizeAnswer_isOk hu a).mpr ha, (normalizeAnswer_isOk hu b).mpr hb, ?_⟩
    rw [judge_numerals hu ha hb, sameNumber_iff]
    exact and_congr_right fun hsign => ⟨hexact hsign, hrounded⟩

theorem Numeral.kept_of_whole {n : Numeral} {k : ℕ} (hk : n.magnitude = k) (hlt : k < 10 ^ 28) : n.Kept := by
  have hbound : (k : ℚ) < 10 ^ 28 := by exact_mod_cast hlt
  refine ⟨fun _ => hk ▸ hbound, ?_⟩
  rw [rounded_of_whole hk hlt]
  exact hbound.trans_le (pow_le_pow_right₀ (by norm_num) (by norm_num))

theorem ascii_onNumerals : Unicode.ascii.OnNumerals where
  nfkc := fun _ _ => rfl
  lower := fun s hs => by
    refine (List.map_congr_left fun c hc => ?_).trans (List.map_id _)
    have hcapital : ∀ c < 91, 65 ≤ c → ¬ (PyText.isSpace c = true ∨ c ∈ [45, 0x2212, 39, 0x2019, 44, 46, 0x2013]) := by decide
    by_cases hrange : 65 ≤ c ∧ c < 91
    · rcases hs c hc with hspace | hdigit | hmark
      · exact absurd (.inl hspace) (hcapital c hrange.2 hrange.1)
      · omega
      · exact absurd (.inr hmark) (hcapital c hrange.2 hrange.1)
    · have hnot : (decide (65 ≤ c) && decide (c ≤ 90)) = false := by
        simp only [Bool.and_eq_false_iff, decide_eq_false_iff_not]
        omega
      simp [hnot]
  digit := fun _ _ => rfl
  isAlnum := fun _ _ => rfl

namespace Sample

/-- `1'200.–` behind a blank -/
def price : Written where
  numeral := ⟨none, 1, [], [(false, 2, 0, 0)], .wholePrice⟩
  before := [32]
  after := []
  isSpace_before := by decide
  isSpace_after := by decide

/-- `1200,00` -/
def amount : Written where
  numeral := ⟨none, 1, [2, 0, 0], [], .fraction true 0 [0]⟩
  before := []
  after := []
  isSpace_before := by decide
  isSpace_after := by decide

/-- A number of 29 digits. -/
def large : Written where
  numeral := ⟨none, 1, List.replicate 28 0, [], .none⟩
  before := []
  after := []
  isSpace_before := by decide
  isSpace_after := by decide

end Sample

theorem judged_by_number_sample : JudgedByNumber .ascii Sample.price Sample.amount := by
  have hprice : Sample.price.numeral.magnitude = (1200 : ℕ) := by decide +kernel
  have hamount : Sample.amount.numeral.magnitude = (1200 : ℕ) := by decide +kernel
  refine (judged_by_number_iff .ascii ascii_onNumerals Sample.price Sample.amount).mpr ⟨?_, ?_, fun _ _ => ?_⟩
  · exact Numeral.kept_of_whole hprice (by norm_num)
  · exact Numeral.kept_of_whole hamount (by norm_num)
  · rw [hprice, hamount]

/-- A number that is longer than the context's precision is not judged at all. -/
theorem large_number_raises : ¬ JudgedByNumber .ascii Sample.large Sample.large := by
  have hraises : normalizeAnswer .ascii Sample.large.text = .error .invalidOperation := by decide +kernel
  intro h
  obtain ⟨form, hform⟩ := h.left
  rw [hraises] at hform
  cases hform

end

end Stoa.AnswerJudging
