import Stoa.Data.JsonText
import Mathlib.Data.List.TakeWhile
import Mathlib.Data.Nat.Digits.Lemmas

/-! # What is written is read back -/

open PyText

namespace JsonText

/-! ## Strings -/

section

variable {s r : Str} {c : ℕ}

theorem readString_letter {code : ℕ} (hc : c ≠ 117) (h : unescape c = some code) :
    readString (92 :: c :: s) = (readString s).map fun (read, r) => (code :: read, r) := by
  rw [readString, h]
  · rfl
  · rintro a b d e t ⟨⟩
    exact absurd rfl hc

theorem readString_plain (hc : 32 ≤ c) (hquote : c ≠ 34) (hslash : c ≠ 92) :
    readString (c :: s) = (readString s).map fun (read, r) => (c :: read, r) := by
  rw [readString, if_neg (by omega)]
  · exact hquote
  · exact fun _ _ _ _ _ heq => absurd heq hslash
  · exact fun _ _ heq => absurd heq hslash

theorem hexValue_hexDigit {n : ℕ} (h : n < 16) : hexValue (hexDigit n) = some n := by
  revert n
  decide

theorem combine_of_lt {code : ℕ} (h : code < 0xd800) (read : Str) : combine code r read = code :: read := by
  cases read with
  | nil => rfl
  | cons low later =>
      refine if_neg fun hboth => ?_
      have hhigh := hboth.1
      simp [isHigh] at hhigh
      omega

theorem readString_escapeCode (c : ℕ) (s : Str) :
    readString (escapeCode c ++ s) = (readString s).map fun (read, r) => (c :: read, r) := by
  unfold escapeCode
  split_ifs with h1 h2 h3 h4 h5 h6 h7 h8
  · subst h1
    exact readString_letter (by decide) rfl
  · subst h2
    exact readString_letter (by decide) rfl
  · subst h3
    exact readString_letter (by decide) rfl
  · subst h4
    exact readString_letter (by decide) rfl
  · subst h5
    exact readString_letter (by decide) rfl
  · subst h6
    exact readString_letter (by decide) rfl
  · subst h7
    exact readString_letter (by decide) rfl
  · have hcode : hexCode 48 48 (hexDigit (c / 16)) (hexDigit (c % 16)) = some c := by
      have hzero : hexValue 48 = some 0 := rfl
      simp only [hexCode, hzero, hexValue_hexDigit (show c / 16 < 16 by omega),
        hexValue_hexDigit (Nat.mod_lt c (by decide : 0 < 16)), Option.bind_eq_bind, Option.bind_some, Option.pure_def]
      congr 1
      omega
    simp only [List.cons_append, List.nil_append, readString, hcode, Option.bind_some]
    congr 1
    funext ⟨read, r⟩
    rw [combine_of_lt (by omega)]
  · exact readString_plain (by omega) h1 h2

/-- A string that was written is read back. -/
theorem readString_escape (s r : Str) : readString (escape s ++ 34 :: r) = some (s, r) := by
  induction s with
  | nil => rfl
  | cons c s ih =>
      rw [escape, List.flatMap_cons, List.append_assoc, readString_escapeCode]
      change (readString (escape s ++ 34 :: r)).map _ = _
      rw [ih]
      rfl

end

/-! ## Numbers -/

/-- A number does not go on here. -/
def NumberEnds (r : Str) : Prop :=
  ∀ c ∈ r.head?, isDigit c = false ∧ c ≠ 43 ∧ c ≠ 45 ∧ c ≠ 46 ∧ c ≠ 69 ∧ c ≠ 101

section

variable {s r : Str}

theorem numberEnds_cons {c : ℕ} (h : isDigit c = false ∧ c ≠ 43 ∧ c ≠ 45 ∧ c ≠ 46 ∧ c ≠ 69 ∧ c ≠ 101) :
    NumberEnds (c :: r) := by
  rintro d ⟨⟩
  exact h

theorem takeWhile_digits (h : NumberEnds r) (s : Str) : (s ++ r).takeWhile isDigit = s.takeWhile isDigit := by
  induction s with
  | nil =>
      cases r with
      | nil => rfl
      | cons c r => exact List.takeWhile_cons_of_neg (by simp [(h c rfl).1])
  | cons c s ih =>
      rw [List.cons_append, List.takeWhile_cons, List.takeWhile_cons, ih]

theorem dropWhile_digits (h : NumberEnds r) (s : Str) :
    (s ++ r).dropWhile isDigit = s.dropWhile isDigit ++ r := by
  induction s with
  | nil =>
      cases r with
      | nil => rfl
      | cons c r => exact List.dropWhile_cons_of_neg (by simp [(h c rfl).1])
  | cons c s ih =>
      rw [List.cons_append, List.dropWhile_cons, List.dropWhile_cons, ih]
      split <;> rfl

theorem readWhole_append (h : NumberEnds r) {whole left : Str} (hs : readWhole s = some (whole, left)) :
    readWhole (s ++ r) = some (whole, left ++ r) := by
  unfold readWhole at hs
  split at hs
  · cases hs
    rfl
  · rename_i hzero
    split at hs
    · cases hs
    · rename_i hdigits
      cases hs
      rw [readWhole, takeWhile_digits h, if_neg hdigits, dropWhile_digits h]
      rintro t ht
      cases s with
      | nil => exact hdigits rfl
      | cons c s =>
          cases ht
          exact hzero _ rfl

theorem readFraction_append (h : NumberEnds r) (s : Str) :
    readFraction (s ++ r) = ((readFraction s).1, (readFraction s).2 ++ r) := by
  have hother : ∀ t : Str, (∀ u, t ≠ 46 :: u) → readFraction t = ([], t) := fun t ht => by
    unfold readFraction
    split
    · exact absurd rfl (ht _)
    · rfl
  cases s with
  | nil =>
      rw [List.nil_append, hother r]
      · rfl
      · rintro u rfl
        exact (h 46 rfl).2.2.2.1 rfl
  | cons c s =>
      by_cases hc : c = 46
      · subst hc
        rw [List.cons_append, readFraction, readFraction, takeWhile_digits h, dropWhile_digits h]
        split <;> rfl
      · rw [hother (c :: s) (by rintro u ⟨⟩; exact hc rfl), hother _ (by rintro u ⟨⟩; exact hc rfl)]

theorem readExponentSign_append (h : NumberEnds r) (s : Str) :
    readExponentSign (s ++ r) = ((readExponentSign s).1, (readExponentSign s).2 ++ r) := by
  have hother : ∀ t : Str, (∀ u, t ≠ 43 :: u) → (∀ u, t ≠ 45 :: u) → readExponentSign t = ([], t) := fun t hplus hminus => by
    unfold readExponentSign
    split
    · exact absurd rfl (hplus _)
    · exact absurd rfl (hminus _)
    · rfl
  cases s with
  | nil =>
      rw [List.nil_append, hother r]
      · rfl
      · rintro u rfl
        exact (h 43 rfl).2.1 rfl
      · rintro u rfl
        exact (h 45 rfl).2.2.1 rfl
  | cons c s =>
      by_cases hplus : c = 43
      · subst hplus
        rfl
      by_cases hminus : c = 45
      · subst hminus
        rfl
      have hsigns : ∀ t : Str, readExponentSign (c :: t) = ([], c :: t) := fun t =>
        hother _ (by rintro u ⟨⟩; exact hplus rfl) (by rintro u ⟨⟩; exact hminus rfl)
      rw [List.cons_append, hsigns, hsigns]
      rfl

theorem readExponent_append (h : NumberEnds r) (s : Str) :
    readExponent (s ++ r) = ((readExponent s).1, (readExponent s).2 ++ r) := by
  cases s with
  | nil =>
      cases r with
      | nil => rfl
      | cons c r =>
          have hc : ¬ (c = 101 ∨ c = 69) := fun hor => hor.elim (h c rfl).2.2.2.2.2 (h c rfl).2.2.2.2.1
          rw [List.nil_append, readExponent, if_neg hc]
          rfl
  | cons c s =>
      rw [List.cons_append, readExponent, readExponent]
      by_cases hc : c = 101 ∨ c = 69
      · rw [if_pos hc, if_pos hc]
        simp only [readExponentSign_append h, takeWhile_digits h, dropWhile_digits h]
        split <;> rfl
      · rw [if_neg hc, if_neg hc]
        rfl

theorem readNumber_eq_some {whole : Bool} {literal left : Str} : readNumber s = some (whole, literal, left) ↔
    ∃ w v, readWhole (readSign s).2 = some (w, v) ∧
      whole = decide ((readFraction v).1 = [] ∧ (readExponent (readFraction v).2).1 = []) ∧
      literal = (readSign s).1 ++ w ++ (readFraction v).1 ++ (readExponent (readFraction v).2).1 ∧
      left = (readExponent (readFraction v).2).2 := by
  unfold readNumber
  simp only [Option.bind_eq_bind, Option.bind_eq_some_iff, Option.pure_def, Option.some.injEq, Prod.mk.injEq]
  constructor
  · rintro ⟨⟨w, v⟩, hw, rfl, rfl, rfl⟩
    exact ⟨w, v, hw, rfl, rfl, rfl⟩
  · rintro ⟨w, v, hw, rfl, rfl, rfl⟩
    exact ⟨(w, v), hw, rfl, rfl, rfl⟩

/-- What follows a number does not change how it is read. -/
theorem readNumber_append (h : NumberEnds r) {whole : Bool} {literal left : Str}
    (hs : readNumber s = some (whole, literal, left)) : readNumber (s ++ r) = some (whole, literal, left ++ r) := by
  obtain ⟨w, v, hw, rfl, rfl, rfl⟩ := readNumber_eq_some.mp hs
  have hsign : readSign (s ++ r) = ((readSign s).1, (readSign s).2 ++ r) := by
    cases s with
    | nil => cases hw
    | cons c s =>
        by_cases hc : c = 45
        · subst hc
          rfl
        · have hother : ∀ t : Str, readSign (c :: t) = ([], c :: t) := fun t => by
            unfold readSign
            split
            · rename_i heq
              cases heq
              exact absurd rfl hc
            · rfl
          rw [List.cons_append, hother, hother]
          rfl
  refine readNumber_eq_some.mpr ⟨w, v ++ r, ?_, ?_, ?_, ?_⟩
  · rw [hsign]
    exact readWhole_append h hw
  all_goals simp only [hsign, readFraction_append h, readExponent_append h]

theorem ofDigits_decimal (n : ℕ) : ofDigits (decimal n) = n := by
  have hdigits : ∀ ds : List ℕ, ofDigits ((ds.map (48 + ·)).reverse) = Nat.ofDigits 10 ds := fun ds => by
    unfold ofDigits
    rw [List.foldl_reverse]
    induction ds with
    | nil => rfl
    | cons d ds ih =>
        rw [List.map_cons, List.foldr_cons, ih, Nat.ofDigits_cons]
        omega
  unfold decimal
  split
  · rename_i hn
    rw [hn]
    rfl
  · rw [hdigits, Nat.ofDigits_digits]

theorem isDigit_of_mem_decimal {n c : ℕ} (h : c ∈ decimal n) : isDigit c = true := by
  obtain ⟨hlow, hhigh⟩ := mem_decimal h
  simp [isDigit, hlow, hhigh]

theorem decimal_ne_nil (n : ℕ) : decimal n ≠ [] := by
  unfold decimal
  split
  · simp
  · rename_i hn
    simpa [Nat.digits_eq_nil_iff_eq_zero] using hn

/-- A number does not begin with a zero, unless it is nothing else. -/
theorem decimal_head {n : ℕ} (hn : n ≠ 0) {s : Str} : decimal n ≠ 48 :: s := by
  intro heq
  unfold decimal at heq
  rw [if_neg hn] at heq
  have hlast := Nat.getLast_digit_ne_zero 10 hn
  have hhead := congrArg List.head? heq
  rw [List.head?_reverse, List.head?_cons, List.getLast?_map, List.getLast?_eq_some_getLast (Nat.digits_ne_nil_iff_ne_zero.mpr hn)]
    at hhead
  simp only [Option.map_some, Option.some.injEq] at hhead
  omega

theorem readWhole_decimal (n : ℕ) : readWhole (decimal n) = some (decimal n, []) := by
  by_cases hn : n = 0
  · subst hn
    rfl
  · have htake : (decimal n).takeWhile isDigit = decimal n :=
      List.takeWhile_eq_self_iff.mpr fun c hc => isDigit_of_mem_decimal hc
    have hdrop : (decimal n).dropWhile isDigit = [] :=
      List.dropWhile_eq_nil_iff.mpr fun c hc => isDigit_of_mem_decimal hc
    rw [readWhole, htake, hdrop, if_neg (decimal_ne_nil n)]
    exact fun s heq => decimal_head hn heq

theorem readSign_decimal (n : ℕ) : readSign (decimal n) = ([], decimal n) := by
  unfold readSign
  split
  · rename_i s heq
    have hdigit : isDigit 45 = true := isDigit_of_mem_decimal (heq ▸ List.mem_cons_self .. : 45 ∈ decimal n)
    cases hdigit
  · rfl

theorem readNumber_ofInt (n : ℤ) : readNumber (ofInt n) = some (true, ofInt n, []) := by
  cases n with
  | ofNat n => exact readNumber_eq_some.mpr ⟨decimal n, [], by rw [ofInt, readSign_decimal, readWhole_decimal], rfl,
      by simp [ofInt, readSign_decimal, readFraction, readExponent], rfl⟩
  | negSucc n => exact readNumber_eq_some.mpr ⟨decimal (n + 1), [], readWhole_decimal (n + 1), rfl,
      by simp [ofInt, readSign, readFraction, readExponent], rfl⟩

theorem ofLiteral_ofInt (n : ℤ) : ofLiteral (ofInt n) = n := by
  cases n with
  | ofNat n =>
      have hplain : ∀ s : Str, (∀ t, s ≠ 45 :: t) → ofLiteral s = ofDigits s := fun s hs => by
        unfold ofLiteral
        split
        · exact absurd rfl (hs _)
        · rfl
      rw [ofInt, hplain, ofDigits_decimal]
      · rfl
      · intro t heq
        have hdigit : isDigit 45 = true := isDigit_of_mem_decimal (heq ▸ List.mem_cons_self .. : 45 ∈ decimal n)
        cases hdigit
  | negSucc n =>
      change -(ofDigits (decimal (n + 1)) : ℤ) = _
      rw [ofDigits_decimal]
      rfl

/-- What a number begins with. -/
theorem readNumber_head {whole : Bool} {literal left : Str} (h : readNumber s = some (whole, literal, left)) :
    ∃ c t, s = c :: t ∧ (isDigit c = true ∨ c = 45 ∧ ∃ d u, t = d :: u ∧ isDigit d = true) := by
  have hwhole : ∀ {t w v : Str}, readWhole t = some (w, v) → ∃ c u, t = c :: u ∧ isDigit c = true := fun {t w v} ht => by
    unfold readWhole at ht
    split at ht
    · exact ⟨_, _, rfl, by decide⟩
    · split at ht
      · cases ht
      · rename_i hne
        cases t with
        | nil => exact absurd rfl hne
        | cons c u =>
            refine ⟨c, u, rfl, ?_⟩
            by_contra hc
            exact hne (List.takeWhile_cons_of_neg hc)
  obtain ⟨w, v, hw, -⟩ := readNumber_eq_some.mp h
  unfold readSign at hw
  split at hw
  · exact ⟨_, _, rfl, .inr ⟨rfl, hwhole hw⟩⟩
  · obtain ⟨c, u, rfl, hc⟩ := hwhole hw
    exact ⟨c, u, rfl, .inl hc⟩

theorem readWord_of_head {c : ℕ} {t : Str} (h : isDigit c = true ∨ c = 45 ∧ ∃ d u, t = d :: u ∧ isDigit d = true) :
    readWord (c :: t) = none := by
  have hcons : ∀ {w : String} {d : ℕ} {v : Str}, str w = d :: v → str w <+: c :: t → c = d := fun {w d v} hw hbegins => by
    rw [hw] at hbegins
    exact (List.cons_prefix_cons.mp hbegins).1.symm
  have hfirst : 45 ≤ c ∧ c ≤ 57 := by
    rcases h with hc | ⟨rfl, -⟩
    · simp [isDigit] at hc
      omega
    · decide
  unfold readWord
  split_ifs with h1 h2 h3 h4 h5 h6
  · have heq : c = 110 := hcons rfl h1
    omega
  · have heq : c = 116 := hcons rfl h2
    omega
  · have heq : c = 102 := hcons rfl h3
    omega
  · have heq : c = 78 := hcons rfl h4
    omega
  · have heq : c = 73 := hcons rfl h5
    omega
  · have heq : c = 45 := hcons rfl h6
    rcases h with hc | ⟨-, d, u, rfl, hd⟩
    · subst heq
      cases hc
    · have hnext : [45, 73] <+: c :: d :: u := (by decide : [45, 73] <+: str "-Infinity").trans h6
      have hd' : (73 : ℕ) = d := (List.cons_prefix_cons.mp (List.cons_prefix_cons.mp hnext).2).1
      subst hd'
      cases hd
  · rfl

end

/-! ## Values -/

mutual

/-- No object has two members of one name. -/
def Value.Distinct : Value → Prop
  | .null => True
  | .bool _ => True
  | .int _ => True
  | .float _ => True
  | .str _ => True
  | .arr items => DistinctItems items
  | .obj members => (members.map Prod.fst).Nodup ∧ DistinctMembers members

def DistinctItems : List Value → Prop
  | [] => True
  | item :: items => item.Distinct ∧ DistinctItems items

def DistinctMembers : List (Str × Value) → Prop
  | [] => True
  | (_, value) :: members => value.Distinct ∧ DistinctMembers members

end

mutual

/-- The steps that it takes to read a value. -/
def Value.cost : Value → ℕ
  | .null => 1
  | .bool _ => 1
  | .int _ => 1
  | .float _ => 1
  | .str _ => 1
  | .arr items => 1 + costItems items
  | .obj members => 1 + costMembers members

def costItems : List Value → ℕ
  | [] => 0
  | item :: items => 1 + item.cost + costItems items

def costMembers : List (Str × Value) → ℕ
  | [] => 0
  | (_, value) :: members => 1 + value.cost + costMembers members

end

section

variable {g r : Str}

theorem insertMember_of_notMem {members : List (Str × Value)} {member : Str × Value}
    (h : member.1 ∉ members.map Prod.fst) : insertMember members member = members ++ [member] := if_neg h

/-- Distinct members are all kept. -/
theorem ofMembers_of_nodup {members : List (Str × Value)} (h : (members.map Prod.fst).Nodup) :
    ofMembers members = .obj members := by
  have hfold : ∀ later earlier : List (Str × Value), ((earlier ++ later).map Prod.fst).Nodup →
      later.foldl insertMember earlier = earlier ++ later := fun later => by
    induction later with
    | nil => simp
    | cons m later ih =>
        intro earlier hnodup
        have hm : m.1 ∉ earlier.map Prod.fst := fun hmem => by
          rw [List.map_append, List.map_cons] at hnodup
          exact (List.nodup_append.mp hnodup).2.2 m.1 hmem m.1 (List.mem_cons_self ..) rfl
        rw [List.foldl_cons, insertMember_of_notMem hm, ih]
        · simp
        · simpa using hnodup
  rw [ofMembers, hfold members [] (by simpa using h), List.nil_append]

theorem skip_of_head {c : ℕ} (hc : isBlank c = false) : skip (c :: r) = c :: r :=
  List.dropWhile_cons_of_neg (by simp [hc])

theorem skip_gap (hgap : ∀ c ∈ g, isBlank c = true) : skip (g ++ r) = skip r := by
  induction g with
  | nil => rfl
  | cons c g ih =>
      rw [skip, List.cons_append, List.dropWhile_cons_of_pos (hgap c (List.mem_cons_self ..))]
      exact ih fun d hd => hgap d (List.mem_cons_of_mem _ hd)

/-- A number is read where it was written. -/
theorem readValue_number {k c : ℕ} {t : Str}
    (hc : isDigit c = true ∨ c = 45 ∧ ∃ d u, t = d :: u ∧ isDigit d = true) :
    readValue (k + 1) (c :: t) = readNumeric (c :: t) := by
  have hrange : 45 ≤ c ∧ c ≤ 57 := by
    rcases hc with hc | ⟨rfl, -⟩
    · simp [isDigit] at hc
      omega
    · decide
  rw [readValue, readWord_of_head hc]
  · rfl
  · rintro s heq
    cases heq
    omega
  · rintro s heq
    cases heq
    omega
  · rintro s heq
    cases heq
    omega

theorem readNumeric_ofInt (hrest : NumberEnds r) (n : ℤ) : readNumeric (ofInt n ++ r) = some (.int n, r) := by
  rw [readNumeric, readNumber_append hrest (readNumber_ofInt n), List.nil_append]
  simp only [ofLiteral_ofInt]

theorem readValue_int (hrest : NumberEnds r) (n : ℤ) (k : ℕ) :
    readValue (k + 1) (ofInt n ++ r) = some (.int n, r) := by
  obtain ⟨c, t, heq, hc⟩ := readNumber_head (readNumber_append hrest (readNumber_ofInt n))
  have hread := readNumeric_ofInt hrest n
  rw [heq] at hread ⊢
  rw [readValue_number hc, hread]

theorem readValue_float (hrest : NumberEnds r) (value : Float) (k : ℕ) :
    readValue (k + 1) (value.literal ++ r) = some (.float value, r) := by
  obtain ⟨literal, hwell⟩ := value
  rcases hwell with hconstant | hnumber
  · simp only [constants, List.mem_cons, List.not_mem_nil, or_false] at hconstant
    rcases hconstant with rfl | rfl | rfl <;> rfl
  · have hread := readNumber_append hrest hnumber
    obtain ⟨c, t, heq, hc⟩ := readNumber_head hread
    have hnumeric : readNumeric (literal ++ r) = some (.float ⟨literal, .inr hnumber⟩, r) := by
      rw [readNumeric, hread, List.nil_append]
      simp only [hnumber, dite_true]
    change readValue (k + 1) (literal ++ r) = _
    rw [heq] at hnumeric ⊢
    rw [readValue_number hc, hnumeric]

/-- What a value that is written begins with. -/
theorem dumps_head (g : Str) (value : Value) : ∃ c t, dumps g value = c :: t ∧ isBlank c = false ∧ c ≠ 93 := by
  have hnumber : ∀ {whole : Bool} {literal : Str}, readNumber literal = some (whole, literal, []) →
      ∃ c t, literal = c :: t ∧ isBlank c = false ∧ c ≠ 93 := fun {whole literal} h => by
    obtain ⟨c, t, heq, hc⟩ := readNumber_head h
    refine ⟨c, t, heq, ?_, ?_⟩
    · rcases hc with hc | ⟨rfl, -⟩
      · simp [isDigit] at hc
        simp [isBlank]
        omega
      · rfl
    · rcases hc with hc | ⟨rfl, -⟩
      · simp [isDigit] at hc
        omega
      · decide
  cases value with
  | null => exact ⟨110, _, rfl, rfl, by decide⟩
  | bool b =>
      cases b with
      | false => exact ⟨102, _, rfl, rfl, by decide⟩
      | true => exact ⟨116, _, rfl, rfl, by decide⟩
  | int n => exact hnumber (readNumber_ofInt n)
  | float value =>
      obtain ⟨literal, hconstant | hread⟩ := value
      · simp only [constants, List.mem_cons, List.not_mem_nil, or_false] at hconstant
        rcases hconstant with rfl | rfl | rfl
        · exact ⟨78, _, rfl, rfl, by decide⟩
        · exact ⟨73, _, rfl, rfl, by decide⟩
        · exact ⟨45, _, rfl, rfl, by decide⟩
      · exact hnumber hread
  | str s => exact ⟨34, _, rfl, rfl, by decide⟩
  | arr items => exact ⟨91, _, rfl, rfl, by decide⟩
  | obj members => exact ⟨123, _, rfl, rfl, by decide⟩

theorem skip_dumps (value : Value) : skip (dumps g value ++ r) = dumps g value ++ r := by
  obtain ⟨c, t, heq, hc, -⟩ := dumps_head g value
  rw [heq]
  exact skip_of_head hc

theorem skip_gap_dumps (hgap : ∀ c ∈ g, isBlank c = true) (value : Value) :
    skip (g ++ (dumps g value ++ r)) = dumps g value ++ r := by rw [skip_gap hgap, skip_dumps]

/-- The items that are written begin with the first of them. -/
theorem dumpsItems_head (item : Value) (items : List Value) :
    ∃ tail, dumpsItems g (item :: items) = dumps g item ++ tail := by
  cases items with
  | nil => exact ⟨[], (List.append_nil _).symm⟩
  | cons next items => exact ⟨_, List.append_assoc ..⟩

theorem numberEnds_comma : NumberEnds (44 :: r) := numberEnds_cons (by decide)

theorem numberEnds_bracket : NumberEnds (93 :: r) := numberEnds_cons (by decide)

theorem numberEnds_brace : NumberEnds (125 :: r) := numberEnds_cons (by decide)

end

mutual

/-- A value that was written is read back, whatever follows it. -/
theorem readValue_dumps {g : Str} (hgap : ∀ c ∈ g, isBlank c = true) (value : Value) (hvalue : value.Distinct)
    {k : ℕ} (hfuel : value.cost ≤ k) {r : Str} (hrest : NumberEnds r) :
    readValue k (dumps g value ++ r) = some (value, r) := by
  obtain ⟨k, rfl⟩ : ∃ n, k = n + 1 := by
    refine Nat.exists_eq_succ_of_ne_zero fun hzero => ?_
    subst hzero
    cases value <;> simp [Value.cost] at hfuel
  cases value with
  | null => rfl
  | bool b => cases b <;> rfl
  | int n => exact readValue_int hrest n k
  | float value => exact readValue_float hrest value k
  | str s =>
      change (readString (escape s ++ [34] ++ r)).map _ = _
      rw [List.append_assoc, List.singleton_append, readString_escape]
      rfl
  | arr items =>
      cases items with
      | nil => rfl
      | cons item items =>
          have hread := readItems_dumps hgap (item :: items) (by simp) hvalue (k := k)
            (by simp only [Value.cost] at hfuel; omega) (r := r)
          obtain ⟨tail, htail⟩ := dumpsItems_head (g := g) item items
          obtain ⟨c, t, hhead, hblank, hclose⟩ := dumps_head g item
          have hfirst : dumpsItems g (item :: items) ++ 93 :: r = c :: (t ++ tail ++ 93 :: r) := by
            rw [htail, hhead]
            simp
          rw [hfirst] at hread
          change readValue (k + 1) (91 :: (dumpsItems g (item :: items) ++ [93] ++ r)) = _
          rw [List.append_assoc, List.singleton_append, hfirst, readValue, skip_of_head hblank]
          split
          · rename_i heq
            cases heq
            exact absurd rfl hclose
          · rw [hread]
            rfl
  | obj members =>
      cases members with
      | nil => rfl
      | cons member members =>
          obtain ⟨name, value⟩ := member
          have hread := readMembers_dumps hgap ((name, value) :: members) (by simp) hvalue.2 (k := k)
            (by simp only [Value.cost] at hfuel; omega) (r := r)
          obtain ⟨tail, htail⟩ : ∃ tail, dumpsMembers g ((name, value) :: members) = 34 :: tail := by
            cases members with
            | nil => exact ⟨_, rfl⟩
            | cons next members => exact ⟨_, rfl⟩
          change readValue (k + 1) (123 :: (dumpsMembers g ((name, value) :: members) ++ [125] ++ r)) = _
          rw [List.append_assoc, List.singleton_append]
          rw [htail] at hread ⊢
          rw [List.cons_append] at hread ⊢
          rw [readValue, skip_of_head (by decide)]
          change (readMembers k (34 :: (tail ++ 125 :: r))).map _ = _
          rw [hread]
          exact congrArg (fun v => some (v, r)) (ofMembers_of_nodup hvalue.1)

theorem readItems_dumps {g : Str} (hgap : ∀ c ∈ g, isBlank c = true) (items : List Value)
    (hne : items ≠ []) (hitems : DistinctItems items) {k : ℕ} (hfuel : costItems items ≤ k) {r : Str} :
    readItems k (dumpsItems g items ++ 93 :: r) = some (items, r) := by
  cases items with
  | nil => exact absurd rfl hne
  | cons item items =>
  obtain ⟨k, rfl⟩ : ∃ n, k = n + 1 := by
    refine Nat.exists_eq_succ_of_ne_zero fun hzero => ?_
    subst hzero
    simp [costItems] at hfuel
  simp only [costItems] at hfuel
  cases items with
  | nil =>
      rw [readItems, dumpsItems, readValue_dumps hgap item hitems.1 (by omega) numberEnds_bracket]
      simp only [Option.bind_eq_bind, Option.bind_some, skip_of_head (show isBlank 93 = false from rfl)]
  | cons next items =>
      have hread := readItems_dumps hgap (next :: items) (by simp) hitems.2 (k := k) (by simp only [costItems] at *; omega)
        (r := r)
      obtain ⟨tail, htail⟩ := dumpsItems_head (g := g) next items
      rw [readItems, dumpsItems, List.append_assoc, List.append_assoc, List.cons_append,
        readValue_dumps hgap item hitems.1 (by omega) numberEnds_comma]
      simp only [Option.bind_eq_bind, Option.bind_some, skip_of_head (show isBlank 44 = false from rfl)]
      rw [htail] at hread ⊢
      rw [List.append_assoc] at hread ⊢
      rw [skip_gap_dumps hgap, hread]
      rfl

theorem readMembers_dumps {g : Str} (hgap : ∀ c ∈ g, isBlank c = true) (members : List (Str × Value))
    (hne : members ≠ []) (hmembers : DistinctMembers members) {k : ℕ} (hfuel : costMembers members ≤ k)
    {r : Str} : readMembers k (dumpsMembers g members ++ 125 :: r) = some (members, r) := by
  cases members with
  | nil => exact absurd rfl hne
  | cons member members =>
  obtain ⟨name, value⟩ := member
  obtain ⟨k, rfl⟩ : ∃ n, k = n + 1 := by
    refine Nat.exists_eq_succ_of_ne_zero fun hzero => ?_
    subst hzero
    simp [costMembers] at hfuel
  simp only [costMembers] at hfuel
  have hcolon : ∀ tail : Str, skip (58 :: tail) = 58 :: tail := fun tail => skip_of_head rfl
  cases members with
  | nil =>
      have hshape : dumpsMembers g [(name, value)] ++ 125 :: r =
          34 :: (escape name ++ 34 :: 58 :: (g ++ (dumps g value ++ 125 :: r))) := by
        simp [dumpsMembers]
      rw [hshape, readMembers, readString_escape]
      simp only [Option.bind_eq_bind, Option.bind_some, hcolon, skip_gap_dumps hgap]
      rw [readValue_dumps hgap value hmembers.1 (by omega) numberEnds_brace]
      simp only [Option.bind_some, skip_of_head (show isBlank 125 = false from rfl)]
  | cons next members =>
      obtain ⟨name', value'⟩ := next
      have hread := readMembers_dumps hgap ((name', value') :: members) (by simp) hmembers.2 (k := k)
        (by simp only [costMembers] at *; omega) (r := r)
      obtain ⟨tail, htail⟩ : ∃ tail, dumpsMembers g ((name', value') :: members) = 34 :: tail := by
        cases members with
        | nil => exact ⟨_, rfl⟩
        | cons next members => exact ⟨_, rfl⟩
      have hshape : dumpsMembers g ((name, value) :: (name', value') :: members) ++ 125 :: r =
          34 :: (escape name ++ 34 :: 58 :: (g ++ (dumps g value ++
            44 :: (g ++ (dumpsMembers g ((name', value') :: members) ++ 125 :: r))))) := by
        simp [dumpsMembers]
      rw [hshape, readMembers, readString_escape]
      simp only [Option.bind_eq_bind, Option.bind_some, hcolon, skip_gap_dumps hgap]
      rw [readValue_dumps hgap value hmembers.1 (by omega) numberEnds_comma]
      simp only [Option.bind_some, skip_of_head (show isBlank 44 = false from rfl), skip_gap hgap]
      rw [htail] at hread ⊢
      rw [List.cons_append] at hread ⊢
      rw [skip_of_head rfl, hread]
      rfl

end

mutual

theorem cost_le {g : Str} (value : Value) : value.cost + 1 ≤ 2 * (dumps g value).length := by
  have hone : value.cost = 1 → value.cost + 1 ≤ 2 * (dumps g value).length := fun hcost => by
    obtain ⟨c, t, heq, -⟩ := dumps_head g value
    rw [heq, hcost, List.length_cons]
    omega
  cases value with
  | null => exact hone rfl
  | bool b => exact hone rfl
  | int n => exact hone rfl
  | float x => exact hone rfl
  | str s => exact hone rfl
  | arr items =>
      have hitems := costItems_le (g := g) items
      simp only [Value.cost, dumps, List.length_append, List.length_cons, List.length_nil]
      omega
  | obj members =>
      have hmembers := costMembers_le (g := g) members
      simp only [Value.cost, dumps, List.length_append, List.length_cons, List.length_nil]
      omega

theorem costItems_le {g : Str} (items : List Value) : costItems items ≤ 2 * (dumpsItems g items).length := by
  cases items with
  | nil => exact Nat.zero_le _
  | cons item items =>
      have hitem := cost_le (g := g) item
      have hitems := costItems_le (g := g) items
      cases items with
      | nil =>
          simp only [costItems, dumpsItems] at *
          omega
      | cons next items =>
          simp only [costItems, dumpsItems, List.length_append, List.length_cons] at *
          omega

theorem costMembers_le {g : Str} (members : List (Str × Value)) :
    costMembers members ≤ 2 * (dumpsMembers g members).length := by
  cases members with
  | nil => exact Nat.zero_le _
  | cons member members =>
      obtain ⟨name, value⟩ := member
      have hvalue := cost_le (g := g) value
      have hmembers := costMembers_le (g := g) members
      cases members with
      | nil =>
          simp only [costMembers, dumpsMembers, List.length_append, List.length_cons] at *
          omega
      | cons next members =>
          obtain ⟨name', value'⟩ := next
          simp only [costMembers, dumpsMembers, List.length_append, List.length_cons] at *
          omega

end

/-- `json.loads` gives back what `json.dumps` was given. -/
theorem loads_dumps {g : Str} (hgap : ∀ c ∈ g, isBlank c = true) {value : Value} (hvalue : value.Distinct) :
    loads (dumps g value) = some value := by
  have hcost := cost_le (g := g) value
  have hread := readValue_dumps hgap value hvalue (k := 2 * (dumps g value).length + 2) (by omega) (r := [])
    fun _ h => by cases h
  have hskip := skip_dumps (g := g) (r := []) value
  rw [List.append_nil] at hread hskip
  rw [loads, hskip, hread]
  rfl

end JsonText
