import Stoa.Data.PyText
import Mathlib.Data.Nat.Log
import Mathlib.Algebra.Order.Field.Power
import Mathlib.Data.Rat.Cast.Order
import Mathlib.Tactic.FieldSimp
import Mathlib.Tactic.Ring

/-! # Decimal arithmetic

Numbers that are kept as a coefficient and a power of ten, and the operations that round
them to the precision of a context. -/

open PyText

@[ext] structure Decimal where
  coefficient : ℕ
  exponent : ℤ
deriving DecidableEq

namespace Decimal

/-- The precision, and the exponents between which a number is normal. -/
structure Context where
  prec : ℕ
  emin : ℤ
  emax : ℤ

inductive Signal where
  | invalidOperation
  | overflow
deriving DecidableEq

/-- The exponent of the least number that can be kept. -/
def Context.etiny (ctx : Context) : ℤ := ctx.emin - (ctx.prec - 1)

/-- The greatest exponent of a coefficient that is as long as the precision. -/
def Context.etop (ctx : Context) : ℤ := ctx.emax - (ctx.prec - 1)

def value (d : Decimal) : ℚ := d.coefficient * 10 ^ d.exponent

/-- How many digits a number is written with. -/
def digitCount (n : ℕ) : ℕ := Nat.log 10 n + 1

/-- The exponent of the first digit. -/
def adjusted (d : Decimal) : ℤ := d.exponent + digitCount d.coefficient - 1

/-- A quotient rounded to the nearest number, and to the even one of two that are as near. -/
def halfEven (n m : ℕ) : ℕ :=
  if 2 * (n % m) < m then n / m
  else if m < 2 * (n % m) then n / m + 1
  else if n / m % 2 = 0 then n / m
  else n / m + 1

/-- The number with another exponent. -/
def rescale (d : Decimal) (e : ℤ) : Decimal :=
  if e ≤ d.exponent then ⟨d.coefficient * 10 ^ (d.exponent - e).toNat, e⟩
  else ⟨halfEven d.coefficient (10 ^ (e - d.exponent).toNat), e⟩

def toIntegralValue (d : Decimal) : Decimal := if 0 ≤ d.exponent then d else d.rescale 0

/-- The number with another exponent, where the precision allows it. -/
def quantize (ctx : Context) (d : Decimal) (e : ℤ) : Except Signal Decimal :=
  if ¬ (ctx.etiny ≤ e ∧ e ≤ ctx.emax) then .error .invalidOperation
  else if d.coefficient = 0 then .ok ⟨0, e⟩
  else if ctx.emax < d.adjusted then .error .invalidOperation
  else if ctx.prec < d.adjusted - e + 1 then .error .invalidOperation
  else
    let ans := d.rescale e
    if ctx.emax < ans.adjusted then .error .invalidOperation
    else if ctx.prec < digitCount ans.coefficient then .error .invalidOperation
    else .ok ans

/-- The least exponent that a number may keep. -/
def Context.least (ctx : Context) (d : Decimal) : ℤ :=
  max (digitCount d.coefficient + d.exponent - ctx.prec) ctx.etiny

/-- The number as a context keeps it. -/
def fix (ctx : Context) (d : Decimal) : Except Signal Decimal :=
  if d.coefficient = 0 then .ok ⟨0, min (max d.exponent ctx.etiny) ctx.emax⟩
  else if ctx.etop < digitCount d.coefficient + d.exponent - ctx.prec then .error .overflow
  else if d.exponent < ctx.least d then
    let ans := d.rescale (ctx.least d)
    if ctx.prec < digitCount ans.coefficient then
      if ctx.etop < ctx.least d + 1 then .error .overflow else .ok ⟨ans.coefficient / 10, ctx.least d + 1⟩
    else .ok ans
  else .ok d

/-- The number without the zeros at its end, of as many as `n`. -/
def stripZeros (most : ℤ) : ℕ → Decimal → Decimal
  | 0, d => d
  | n + 1, d =>
    if d.coefficient % 10 = 0 ∧ d.exponent < most then stripZeros most n ⟨d.coefficient / 10, d.exponent + 1⟩ else d

def normalize (ctx : Context) (d : Decimal) : Except Signal Decimal := do
  let d ← d.fix ctx
  if d.coefficient = 0 then .ok ⟨0, 0⟩ else .ok (d.stripZeros ctx.emax (digitCount d.coefficient))

/-- The last `k` digits of a number. -/
def lastDigits : ℕ → ℕ → Str
  | 0, _ => []
  | k + 1, n => lastDigits k (n / 10) ++ [48 + n % 10]

/-- The number in full, with a point where it is not whole. -/
def formatF (d : Decimal) : Str :=
  if 0 ≤ d.exponent then decimal (d.coefficient * 10 ^ d.exponent.toNat)
  else
    let k := (-d.exponent).toNat
    decimal (d.coefficient / 10 ^ k) ++ 46 :: lastDigits k (d.coefficient % 10 ^ k)

/-- The number that decimal digits write, after a number. -/
def digitsFrom (digit : ℕ → Option ℕ) : ℕ → Str → Option ℕ
  | n, [] => some n
  | n, c :: s => (digit c).bind fun x => digitsFrom digit (10 * n + x) s

/-- A number written with digits, with a point among them or without. -/
def ofText (digit : ℕ → Option ℕ) (s : Str) : Option Decimal :=
  let whole := s.takeWhile (· ≠ 46)
  let fraction := (s.dropWhile (· ≠ 46)).drop 1
  if whole ++ fraction = [] then none
  else (digitsFrom digit 0 (whole ++ fraction)).map fun n => ⟨n, -fraction.length⟩

/-! ## Numbers of digits -/

section

variable {n k : ℕ}

theorem digitCount_le_iff (hk : 0 < k) : digitCount n ≤ k ↔ n < 10 ^ k := by
  unfold digitCount
  rw [Nat.succ_le_iff]
  by_cases hn : n = 0
  · subst hn
    simp [hk]
  · exact Nat.log_lt_iff_lt_pow (by decide) hn

theorem digitCount_pos (n : ℕ) : 0 < digitCount n := Nat.succ_pos _

theorem lt_pow_digitCount (n : ℕ) : n < 10 ^ digitCount n := (digitCount_le_iff (digitCount_pos n)).mp le_rfl

theorem pow_le_of_ne_zero (hn : n ≠ 0) : 10 ^ (digitCount n - 1) ≤ n := Nat.pow_log_le_self 10 hn

theorem digitCount_mul_pow (hn : n ≠ 0) (k : ℕ) : digitCount (n * 10 ^ k) = digitCount n + k := by
  induction k with
  | zero => simp
  | succ k ih =>
      have hne : n * 10 ^ k ≠ 0 := Nat.mul_ne_zero hn (by positivity)
      rw [pow_succ, ← mul_assoc, digitCount, Nat.log_mul_base (by decide) hne]
      unfold digitCount at ih ⊢
      omega

end

/-! ## Rounding quotients -/

section

variable {n m k : ℕ}

theorem halfEven_mul (n : ℕ) (hm : 0 < m) : halfEven (n * m) m = n := by
  simp [halfEven, Nat.mul_mod_left, hm, Nat.mul_div_cancel _ hm]

theorem halfEven_mul_mul (n m : ℕ) {k : ℕ} (hk : 0 < k) : halfEven (n * k) (m * k) = halfEven n m := by
  have hdiv : n * k / (m * k) = n / m := Nat.mul_div_mul_right n m hk
  have hmod : n * k % (m * k) = n % m * k := Nat.mul_mod_mul_right k n m
  have hassoc : 2 * (n % m * k) = 2 * (n % m) * k := (Nat.mul_assoc ..).symm
  unfold halfEven
  rw [hdiv, hmod, hassoc]
  simp only [Nat.mul_lt_mul_right hk]

theorem div_le_halfEven : n / m ≤ halfEven n m := by
  unfold halfEven
  split_ifs <;> omega

theorem halfEven_le : halfEven n m ≤ n / m + 1 := by
  unfold halfEven
  split_ifs <;> omega

end

/-! ## Numbers in full -/

section

variable {d d' : Decimal} {n k : ℕ}

@[simp] theorem length_lastDigits (k n : ℕ) : (lastDigits k n).length = k := by
  induction k generalizing n with
  | zero => rfl
  | succ k ih => simp [lastDigits, ih]

theorem mem_lastDigits {c : ℕ} (h : c ∈ lastDigits k n) : 48 ≤ c ∧ c ≤ 57 := by
  induction k generalizing n with
  | zero => cases h
  | succ k ih =>
      rcases List.mem_append.mp h with hearlier | hlast
      · exact ih hearlier
      · cases List.mem_singleton.mp hlast
        omega

theorem lastDigits_injective {m : ℕ} (hn : n < 10 ^ k) (hm : m < 10 ^ k) (h : lastDigits k n = lastDigits k m) : n = m := by
  induction k generalizing n m with
  | zero => omega
  | succ k ih =>
      rw [pow_succ] at hn hm
      obtain ⟨hinit, hlast⟩ := List.append_inj' h rfl
      have hdiv : n / 10 = m / 10 := ih (by omega) (by omega) hinit
      have hmod : 48 + n % 10 = 48 + m % 10 := List.head_eq_of_cons_eq hlast
      omega

theorem value_of_nonneg (h : 0 ≤ d.exponent) : d.value = ((d.coefficient * 10 ^ d.exponent.toNat : ℕ) : ℚ) := by
  obtain ⟨e, he⟩ := Int.eq_ofNat_of_zero_le h
  rw [value, he]
  push_cast
  simp

theorem value_of_neg (h : d.exponent < 0) : d.value = d.coefficient / 10 ^ (-d.exponent).toNat := by
  obtain ⟨k, hk⟩ := Int.eq_ofNat_of_zero_le (show 0 ≤ -d.exponent by omega)
  have he : d.exponent = -(k : ℤ) := by omega
  rw [value, he, zpow_neg, zpow_natCast, neg_neg, Int.toNat_natCast, div_eq_mul_inv]

/-- Whole, or without zeros at the end. -/
def Plain (d : Decimal) : Prop := 0 ≤ d.exponent ∨ d.coefficient % 10 ≠ 0

theorem formatF_of_nonneg (h : 0 ≤ d.exponent) : d.formatF = decimal (d.coefficient * 10 ^ d.exponent.toNat) := if_pos h

theorem formatF_of_neg (h : d.exponent < 0) :
    d.formatF = decimal (d.coefficient / 10 ^ (-d.exponent).toNat) ++
      46 :: lastDigits (-d.exponent).toNat (d.coefficient % 10 ^ (-d.exponent).toNat) := if_neg (by omega)

theorem point_notMem_decimal (n : ℕ) : 46 ∉ decimal n := by
  intro h
  have hdigit := mem_decimal h
  omega

/-- A number that is not whole is not written as a whole one. -/
theorem formatF_ne (h : 0 ≤ d.exponent) (h' : d'.exponent < 0) : d.formatF ≠ d'.formatF := by
  rw [formatF_of_nonneg h, formatF_of_neg h']
  intro heq
  have hpoint : 46 ∈ decimal (d.coefficient * 10 ^ d.exponent.toNat) := by
    rw [heq]
    simp
  exact point_notMem_decimal _ hpoint

/-- A number of digits after the point, the last of which is not a zero, is not whole. -/
theorem value_ne (hlast : d.coefficient % 10 ≠ 0) (h : d.exponent < 0) (n : ℕ) : d.value ≠ n := by
  rw [value_of_neg h]
  intro heq
  obtain ⟨k, hk⟩ : ∃ k, (-d.exponent).toNat = k + 1 := ⟨(-d.exponent).toNat - 1, by omega⟩
  rw [hk, div_eq_iff (by positivity)] at heq
  have hcoefficient : d.coefficient = n * 10 ^ (k + 1) := by exact_mod_cast heq
  rw [hcoefficient, pow_succ, ← mul_assoc, Nat.mul_mod_left] at hlast
  exact hlast rfl

/-- Of two numbers with the same value the one with the longer fraction ends in zeros. -/
theorem toNat_le_of_value_eq (h : d.exponent < 0) (h' : d'.exponent < 0) (hlast : d.coefficient % 10 ≠ 0)
    (heq : d.value = d'.value) : (-d.exponent).toNat ≤ (-d'.exponent).toNat := by
  by_contra hlt
  obtain ⟨j, hj⟩ : ∃ j, (-d.exponent).toNat = (-d'.exponent).toNat + (j + 1) :=
    ⟨(-d.exponent).toNat - (-d'.exponent).toNat - 1, by omega⟩
  rw [value_of_neg h, value_of_neg h', div_eq_div_iff (by positivity) (by positivity), hj, pow_add] at heq
  have hnat : d.coefficient * 10 ^ (-d'.exponent).toNat = d'.coefficient * (10 ^ (-d'.exponent).toNat * 10 ^ (j + 1)) := by
    exact_mod_cast heq
  have hcoefficient : d.coefficient = d'.coefficient * 10 ^ j * 10 := by
    refine Nat.eq_of_mul_eq_mul_right (show 0 < 10 ^ (-d'.exponent).toNat by positivity) ?_
    rw [hnat, pow_succ]
    ring
  rw [hcoefficient, Nat.mul_mod_left] at hlast
  exact hlast rfl

theorem eq_of_value_eq (h : d.exponent < 0) (h' : d'.exponent < 0) (hlast : d.coefficient % 10 ≠ 0)
    (hlast' : d'.coefficient % 10 ≠ 0) (heq : d.value = d'.value) : d = d' := by
  have hle := toNat_le_of_value_eq h h' hlast heq
  have hge := toNat_le_of_value_eq h' h hlast' heq.symm
  have hexponent : d.exponent = d'.exponent := by omega
  rw [value, value, hexponent] at heq
  have hcoefficient := mul_right_cancel₀ (zpow_ne_zero d'.exponent (by norm_num)) heq
  obtain ⟨c, e⟩ := d
  obtain ⟨c', e'⟩ := d'
  simp only at hexponent hcoefficient
  rw [hexponent, Nat.cast_injective hcoefficient]

theorem eq_of_formatF_eq (h : d.exponent < 0) (h' : d'.exponent < 0) (heq : d.formatF = d'.formatF) : d = d' := by
  rw [formatF_of_neg h, formatF_of_neg h',
    List.append_cons_inj_of_notMem (point_notMem_decimal _) fun hpoint => absurd (mem_lastDigits hpoint) (by omega)] at heq
  obtain ⟨hwhole, -, hfraction⟩ := heq
  have hk : (-d.exponent).toNat = (-d'.exponent).toNat := by
    have hlength := congrArg List.length hfraction
    simpa using hlength
  rw [hk] at hwhole hfraction
  have hpos : 0 < 10 ^ (-d'.exponent).toNat := by positivity
  have hmod := lastDigits_injective (Nat.mod_lt _ hpos) (Nat.mod_lt _ hpos) hfraction
  have hdiv := decimal_injective hwhole
  obtain ⟨c, e⟩ := d
  obtain ⟨c', e'⟩ := d'
  have hexponent : e = e' := by
    simp only at h h' hk
    omega
  have hcoefficient : c = c' := by
    rw [← Nat.div_add_mod c (10 ^ (-e').toNat), hdiv, hmod, Nat.div_add_mod]
  rw [hexponent, hcoefficient]

/-- Numbers are written in full as the same text exactly when they are the same. -/
theorem formatF_eq_iff (h : d.Plain) (h' : d'.Plain) : d.formatF = d'.formatF ↔ d.value = d'.value := by
  rcases lt_or_ge d.exponent 0 with hd | hd
  · have hlast : d.coefficient % 10 ≠ 0 := h.resolve_left (by omega)
    rcases lt_or_ge d'.exponent 0 with hd' | hd'
    · have hlast' : d'.coefficient % 10 ≠ 0 := h'.resolve_left (by omega)
      exact ⟨fun heq => by rw [eq_of_formatF_eq hd hd' heq], fun heq => by rw [eq_of_value_eq hd hd' hlast hlast' heq]⟩
    · rw [value_of_nonneg hd']
      exact iff_of_false (formatF_ne hd' hd).symm (value_ne hlast hd _)
  · rcases lt_or_ge d'.exponent 0 with hd' | hd'
    · have hlast' : d'.coefficient % 10 ≠ 0 := h'.resolve_left (by omega)
      rw [value_of_nonneg hd]
      exact iff_of_false (formatF_ne hd hd') (value_ne hlast' hd' _).symm
    · rw [formatF_of_nonneg hd, formatF_of_nonneg hd', value_of_nonneg hd, value_of_nonneg hd', Nat.cast_inj]
      exact ⟨decimal_injective, fun heq => by rw [heq]⟩

theorem mem_formatF {c : ℕ} (h : c ∈ d.formatF) : (48 ≤ c ∧ c ≤ 57) ∨ c = 46 := by
  unfold formatF at h
  split at h
  · exact .inl (mem_decimal h)
  · simp only [List.mem_append, List.mem_cons] at h
    rcases h with hwhole | rfl | hfraction
    · exact .inl (mem_decimal hwhole)
    · exact .inr rfl
    · exact .inl (mem_lastDigits hfraction)

theorem decimal_eq_concat (n : ℕ) : ∃ s x, decimal n = s ++ [x] ∧ 48 ≤ x ∧ x ≤ 57 := by
  have hne : decimal n ≠ [] := by
    unfold decimal
    split
    · simp
    · rename_i hn
      simpa [Nat.digits_eq_nil_iff_eq_zero] using hn
  obtain ⟨s, x, heq⟩ := (decimal n).eq_nil_or_concat.resolve_left hne
  rw [List.concat_eq_append] at heq
  exact ⟨s, x, heq, mem_decimal (n := n) (by simp [heq])⟩

/-- A number in full ends in a digit. -/
theorem formatF_eq_concat (d : Decimal) : ∃ s x, d.formatF = s ++ [x] ∧ 48 ≤ x ∧ x ≤ 57 := by
  rcases lt_or_ge d.exponent 0 with hneg | hpos
  · rw [formatF_of_neg hneg]
    obtain ⟨k, hk⟩ : ∃ k, (-d.exponent).toNat = k + 1 := ⟨(-d.exponent).toNat - 1, by omega⟩
    rw [hk, lastDigits]
    refine ⟨_, _, (by rw [← List.cons_append, ← List.append_assoc]), ?_⟩
    omega
  · rw [formatF_of_nonneg hpos]
    exact decimal_eq_concat _

end

/-! ## Rounding -/

section

variable {ctx : Context} {d d' r : Decimal} {n k : ℕ}

/-- The number rounded to the precision of a context, however large it is. -/
def round (ctx : Context) (d : Decimal) : Decimal := if d.exponent < ctx.least d then d.rescale (ctx.least d) else d

/-- What a context has to be for its bounds to make sense. -/
structure Context.Sound (ctx : Context) : Prop where
  prec : 0 < ctx.prec
  emin : ctx.emin ≤ 0
  emax : ctx.prec ≤ ctx.emax

theorem rescale_of_le {e : ℤ} (h : e ≤ d.exponent) : d.rescale e = ⟨d.coefficient * 10 ^ (d.exponent - e).toNat, e⟩ :=
  if_pos h

theorem rescale_of_lt {e : ℤ} (h : d.exponent < e) :
    d.rescale e = ⟨halfEven d.coefficient (10 ^ (e - d.exponent).toNat), e⟩ := if_neg (by omega)

/-- A zero at the end is a step of the exponent. -/
theorem value_shift (c : ℕ) (e : ℤ) (k : ℕ) : value ⟨c * 10 ^ k, e⟩ = value ⟨c, e + k⟩ := by
  simp only [value]
  rw [zpow_add₀ (by norm_num), zpow_natCast]
  push_cast
  ring

theorem value_zero (e : ℤ) : value ⟨0, e⟩ = 0 := by simp [value]

theorem value_lt_pow (h : d.coefficient < 10 ^ k) : d.value < 10 ^ (k + d.exponent) := by
  have hpos : (0 : ℚ) < 10 ^ d.exponent := by positivity
  rw [value, zpow_add₀ (by norm_num), zpow_natCast, mul_lt_mul_iff_left₀ hpos]
  exact_mod_cast h

theorem pow_le_value (h : 10 ^ k ≤ d.coefficient) : 10 ^ (k + d.exponent) ≤ d.value := by
  have hpos : (0 : ℚ) < 10 ^ d.exponent := by positivity
  rw [value, zpow_add₀ (by norm_num), zpow_natCast, mul_le_mul_iff_left₀ hpos]
  exact_mod_cast h

theorem value_eq_pow (h : d.coefficient = 10 ^ k) : d.value = 10 ^ (k + d.exponent) := by
  rw [value, h, zpow_add₀ (by norm_num), zpow_natCast]
  push_cast
  rfl

theorem stripZeros_value (most : ℤ) (n : ℕ) (d : Decimal) : (d.stripZeros most n).value = d.value := by
  induction n generalizing d with
  | zero => rfl
  | succ n ih =>
      unfold stripZeros
      split
      · rename_i h
        rw [ih]
        have hcoefficient : d.coefficient = d.coefficient / 10 * 10 ^ 1 := by omega
        have hshift := value_shift (d.coefficient / 10) d.exponent 1
        rw [← hcoefficient] at hshift
        exact hshift.symm
      · rfl

theorem stripZeros_plain {most : ℤ} (hmost : 0 ≤ most) (hne : d.coefficient ≠ 0) (hn : d.coefficient < 10 ^ n) :
    (d.stripZeros most n).Plain := by
  induction n generalizing d with
  | zero => omega
  | succ n ih =>
      unfold stripZeros
      split
      · rename_i h
        rw [pow_succ] at hn
        exact ih (by simp only; omega) (by simp only; omega)
      · rename_i h
        by_cases hlast : d.coefficient % 10 = 0
        · exact .inl (by simp only [hlast, true_and] at h; omega)
        · exact .inr hlast

theorem round_coefficient_zero (h : d.coefficient = 0) : (d.round ctx).value = 0 := by
  have hhalf : ∀ m, halfEven 0 m = 0 := by
    intro m
    unfold halfEven
    split_ifs <;> simp_all
  unfold round
  split
  · rename_i hlt
    rw [rescale_of_lt hlt, h, hhalf, value_zero]
  · rw [value, h, Nat.cast_zero, zero_mul]

/-- A coefficient is rounded to the precision, or up to the next power of ten. -/
theorem rescale_least_le (hlt : d.exponent < ctx.least d) : (d.rescale (ctx.least d)).coefficient ≤ 10 ^ ctx.prec := by
  have hdigits := lt_pow_digitCount d.coefficient
  have hleast : digitCount d.coefficient + d.exponent - ctx.prec ≤ ctx.least d := le_max_left _ _
  rw [rescale_of_lt hlt]
  refine halfEven_le.trans (Nat.succ_le_of_lt ((Nat.div_lt_iff_lt_mul (by positivity)).mpr ?_))
  rw [← pow_add]
  exact hdigits.trans_le (Nat.pow_le_pow_right (by decide) (by omega))

/-- A coefficient that has become too long is the next power of ten. -/
theorem rescale_least_eq (hsound : ctx.Sound) (hlt : d.exponent < ctx.least d)
    (hlong : ctx.prec < digitCount (d.rescale (ctx.least d)).coefficient) :
    (d.rescale (ctx.least d)).coefficient = 10 ^ ctx.prec := by
  refine le_antisymm (rescale_least_le hlt) ?_
  by_contra hless
  have hshort := (digitCount_le_iff hsound.prec).mpr (not_le.mp hless)
  omega

theorem rescale_exponent (d : Decimal) (e : ℤ) : (d.rescale e).exponent = e := by
  unfold rescale
  split <;> rfl

/-- Zeros at the end do not change how a number is rounded. -/
theorem round_shift (c : ℕ) (e : ℤ) (k : ℕ) : (round ctx ⟨c * 10 ^ k, e⟩).value = (round ctx ⟨c, e + k⟩).value := by
  by_cases hzero : c = 0
  · rw [round_coefficient_zero (by simp [hzero]), round_coefficient_zero hzero]
  · have hleast : ctx.least ⟨c * 10 ^ k, e⟩ = ctx.least ⟨c, e + k⟩ := by
      simp only [Context.least]
      rw [digitCount_mul_pow hzero]
      push_cast
      congr 1
      omega
    have hpos : 0 < 10 ^ k := by positivity
    unfold round
    rw [hleast]
    generalize ctx.least ⟨c, e + k⟩ = l
    simp only
    by_cases hlater : e + k < l
    · have hj : (l - e).toNat = (l - (e + k)).toNat + k := by omega
      rw [if_pos (by omega), if_pos hlater, rescale_of_lt (by simp only; omega), rescale_of_lt hlater]
      simp only
      rw [hj, pow_add, halfEven_mul_mul _ _ hpos]
    · rw [if_neg hlater]
      split
      · rename_i hless
        obtain ⟨j, hj⟩ : ∃ j : ℕ, (l - e).toNat + j = k := ⟨k - (l - e).toNat, by omega⟩
        have hl : l + j = e + k := by omega
        rw [rescale_of_lt hless]
        simp only
        rw [← hl, ← value_shift, ← hj, Nat.add_comm, pow_add, ← mul_assoc, halfEven_mul _ (by positivity)]
      · exact value_shift c e k

theorem eq_shift (h : d.value = d'.value) (hle : d.exponent ≤ d'.exponent) :
    d = ⟨d'.coefficient * 10 ^ (d'.exponent - d.exponent).toNat, d.exponent⟩ := by
  obtain ⟨c, e⟩ := d
  obtain ⟨c', e'⟩ := d'
  simp only at hle ⊢
  obtain ⟨k, hk⟩ := Int.eq_ofNat_of_zero_le (show 0 ≤ e' - e by omega)
  have he : e' = e + k := by omega
  have hshift := value_shift c' e k
  rw [← he, ← h] at hshift
  have hcoefficient := mul_right_cancel₀ (zpow_ne_zero e (by norm_num)) hshift
  rw [hk, Int.toNat_natCast]
  exact congrArg (Decimal.mk · e) (Nat.cast_injective hcoefficient).symm

/-- Equal numbers are rounded to equal numbers. -/
theorem round_congr (h : d.value = d'.value) : (d.round ctx).value = (d'.round ctx).value := by
  have hle : ∀ {d d' : Decimal}, d.value = d'.value → d.exponent ≤ d'.exponent → (d.round ctx).value = (d'.round ctx).value := by
    intro d d' h hle
    rw [eq_shift h hle, round_shift]
    have hexponent : d.exponent + (d'.exponent - d.exponent).toNat = d'.exponent := by omega
    rw [hexponent]
  rcases le_total d.exponent d'.exponent with hless | hmore
  · exact hle h hless
  · exact (hle h.symm hmore).symm

theorem fix_value (hsound : ctx.Sound) (h : d.fix ctx = .ok r) : r.value = (d.round ctx).value := by
  unfold fix at h
  split at h
  · rename_i hzero
    cases h
    rw [round_coefficient_zero hzero, value_zero]
  · split at h
    · cases h
    · split at h
      · rename_i hlt
        rw [round, if_pos hlt]
        simp only at h
        split at h
        · rename_i hlong
          split at h
          · cases h
          · cases h
            have hpower := rescale_least_eq hsound hlt hlong
            obtain ⟨p, hp⟩ : ∃ p, ctx.prec = p + 1 := ⟨ctx.prec - 1, by have hprec := hsound.prec; omega⟩
            rw [hpower, hp, pow_succ, Nat.mul_div_cancel _ (by decide)]
            have hans : d.rescale (ctx.least d) = ⟨10 ^ p * 10 ^ 1, ctx.least d⟩ := by
              refine Decimal.ext ?_ (rescale_exponent d _)
              rw [hpower, hp, pow_succ, pow_one]
            rw [hans]
            exact (value_shift (10 ^ p) (ctx.least d) 1).symm
        · cases h
          rfl
      · rename_i hnot
        cases h
        rw [round, if_neg hnot]

/-- Rounding does not take a number below the power of ten that it begins with. -/
theorem pow_le_round (hsound : ctx.Sound) (hne : d.coefficient ≠ 0) (h : 0 ≤ digitCount d.coefficient - 1 + d.exponent) :
    10 ^ (digitCount d.coefficient - 1 + d.exponent) ≤ (d.round ctx).value := by
  have hprec := hsound.prec
  have hemin := hsound.emin
  have hpow := pow_le_of_ne_zero hne
  have hcount := digitCount_pos d.coefficient
  unfold round
  split
  · rename_i hlt
    obtain ⟨j, hj⟩ : ∃ j : ℕ, ctx.least d = d.exponent + j := ⟨(ctx.least d - d.exponent).toNat, by omega⟩
    have hle : j ≤ digitCount d.coefficient - 1 := by
      have hleast : ctx.least d ≤ digitCount d.coefficient - 1 + d.exponent :=
        max_le (by omega) (by unfold Context.etiny; omega)
      omega
    have hquotient : 10 ^ (digitCount d.coefficient - 1 - j) ≤ (d.rescale (ctx.least d)).coefficient := by
      have htoNat : (ctx.least d - d.exponent).toNat = j := by omega
      rw [rescale_of_lt hlt, htoNat]
      refine ((Nat.le_div_iff_mul_le (by positivity)).mpr ?_).trans div_le_halfEven
      rwa [← pow_add, Nat.sub_add_cancel hle]
    refine (zpow_le_zpow_right₀ (by norm_num) ?_).trans (pow_le_value hquotient)
    rw [rescale_exponent]
    omega
  · refine (zpow_le_zpow_right₀ (by norm_num) ?_).trans (pow_le_value hpow)
    omega

/-- A context keeps exactly the numbers that are rounded to less than the power of ten
after its greatest exponent. -/
theorem fix_isOk_iff (hsound : ctx.Sound) : (∃ r, d.fix ctx = .ok r) ↔ (d.round ctx).value < 10 ^ (ctx.emax + 1) := by
  have hprec := hsound.prec
  have hemin := hsound.emin
  have hemax := hsound.emax
  unfold fix
  split
  · rename_i hzero
    rw [round_coefficient_zero hzero]
    exact iff_of_true ⟨_, rfl⟩ (by positivity)
  · rename_i hne
    have hdigits := lt_pow_digitCount d.coefficient
    have hpow := pow_le_of_ne_zero hne
    split
    · rename_i hover
      refine iff_of_false (by simp) (not_lt.mpr ((zpow_le_zpow_right₀ (by norm_num) ?_).trans (pow_le_round hsound hne ?_)))
      · unfold Context.etop at hover
        omega
      · unfold Context.etop at hover
        omega
    · rename_i hunder
      split
      · rename_i hlt
        simp only
        rw [round, if_pos hlt]
        split
        · rename_i hlong
          rw [value_eq_pow (rescale_least_eq hsound hlt hlong), rescale_exponent,
            zpow_lt_zpow_iff_right₀ (by norm_num)]
          unfold Context.etop
          split
          · exact iff_of_false (by simp) (by omega)
          · exact iff_of_true ⟨_, rfl⟩ (by omega)
        · rename_i hshort
          refine iff_of_true ⟨_, rfl⟩ ?_
          have hlength := (digitCount_le_iff hprec).mp (not_lt.mp hshort)
          refine (value_lt_pow hlength).trans_le (zpow_le_zpow_right₀ (by norm_num) ?_)
          have htop : ctx.least d ≤ ctx.etop := max_le (not_lt.mp hunder) (by unfold Context.etiny Context.etop; omega)
          rw [rescale_exponent]
          unfold Context.etop at htop
          omega
      · rename_i hnot
        refine iff_of_true ⟨_, rfl⟩ ?_
        rw [round, if_neg hnot]
        refine (value_lt_pow hdigits).trans_le (zpow_le_zpow_right₀ (by norm_num) ?_)
        unfold Context.etop at hunder
        omega
end

/-! ## Normal forms -/

section

variable {ctx : Context} {d r : Decimal} {n : ℕ}

theorem normalize_spec (hsound : ctx.Sound) (h : d.normalize ctx = .ok r) : r.Plain ∧ r.value = (d.round ctx).value := by
  unfold normalize at h
  cases hfix : d.fix ctx with
  | error e =>
      rw [hfix] at h
      cases h
  | ok kept =>
      rw [hfix] at h
      change (if kept.coefficient = 0 then (.ok ⟨0, 0⟩ : Except Signal Decimal) else _) = _ at h
      rw [← fix_value hsound hfix]
      split at h
      · rename_i hzero
        cases h
        exact ⟨.inl le_rfl, by rw [value_zero, value, hzero, Nat.cast_zero, zero_mul]⟩
      · rename_i hne
        cases h
        have hmost : 0 ≤ ctx.emax := by
          have hemax := hsound.emax
          omega
        exact ⟨stripZeros_plain hmost hne (lt_pow_digitCount _), stripZeros_value ..⟩

theorem normalize_isOk_iff (hsound : ctx.Sound) :
    (∃ r, d.normalize ctx = .ok r) ↔ (d.round ctx).value < 10 ^ (ctx.emax + 1) := by
  rw [← fix_isOk_iff hsound]
  unfold normalize
  cases d.fix ctx with
  | error e => simp [bind, Except.bind]
  | ok kept =>
      refine iff_of_true ?_ ⟨kept, rfl⟩
      by_cases hzero : kept.coefficient = 0
      · exact ⟨⟨0, 0⟩, by simp [bind, Except.bind, hzero]⟩
      · exact ⟨kept.stripZeros ctx.emax (digitCount kept.coefficient), by simp [bind, Except.bind, hzero]⟩

/-- A number without an exponent above zero is whole where its coefficient ends in as many zeros. -/
theorem value_eq_natCast_iff (h : d.exponent ≤ 0) : d.value = n ↔ d.coefficient = n * 10 ^ (-d.exponent).toNat := by
  have hvalue : d.value = d.coefficient / 10 ^ (-d.exponent).toNat := by
    rcases h.lt_or_eq with hneg | hzero
    · exact value_of_neg hneg
    · simp [value, hzero]
  rw [hvalue, div_eq_iff (by positivity)]
  exact_mod_cast Iff.rfl

theorem value_eq_toIntegralValue_iff : d.value = d.toIntegralValue.value ↔ ∃ n : ℕ, d.value = n := by
  unfold toIntegralValue
  split
  · rename_i h
    exact iff_of_true rfl ⟨_, value_of_nonneg h⟩
  · rename_i h
    have hrescale := rescale_of_lt (d := d) (e := 0) (by omega)
    constructor
    · intro heq
      rw [hrescale] at heq
      exact ⟨_, heq.trans (value_of_nonneg le_rfl)⟩
    · rintro ⟨n, hn⟩
      have hcoefficient := (value_eq_natCast_iff (by omega)).mp hn
      have hk : (0 - d.exponent).toNat = (-d.exponent).toNat := by omega
      rw [hrescale, hn, hcoefficient, hk, halfEven_mul _ (by positivity), value_of_nonneg le_rfl]
      simp

/-- Rounding leaves a whole number that the precision allows. -/
theorem round_value_of_whole (hsound : ctx.Sound) (h : d.exponent ≤ 0) (hn : d.value = n) (hlt : n < 10 ^ ctx.prec) :
    (d.round ctx).value = n := by
  have hcoefficient := (value_eq_natCast_iff h).mp hn
  by_cases hzero : n = 0
  · subst hzero
    rw [round_coefficient_zero (by rw [hcoefficient, Nat.zero_mul]), Nat.cast_zero]
  · unfold round
    split
    · rename_i hless
      have hcount := (digitCount_le_iff hsound.prec).mpr hlt
      have hemin := hsound.emin
      have hprec := hsound.prec
      have hleast : ctx.least d ≤ 0 := by
        refine max_le ?_ (by unfold Context.etiny; omega)
        rw [hcoefficient, digitCount_mul_pow hzero]
        push_cast
        omega
      obtain ⟨j, hj⟩ : ∃ j : ℕ, ctx.least d = -(j : ℤ) := ⟨(-ctx.least d).toNat, by omega⟩
      have hk : (-d.exponent).toNat = j + (ctx.least d - d.exponent).toNat := by omega
      rw [hk, pow_add, ← mul_assoc] at hcoefficient
      rw [rescale_of_lt hless, hcoefficient, halfEven_mul _ (by positivity), value_shift, hj, neg_add_cancel]
      simp [value]
    · exact hn

/-- A whole number is kept as long as the precision allows. -/
theorem quantize_whole (hsound : ctx.Sound) (h : d.exponent ≤ 0) (hn : d.value = n) :
    d.quantize ctx 0 = if n < 10 ^ ctx.prec then .ok ⟨n, 0⟩ else .error .invalidOperation := by
  have hprec := hsound.prec
  have hemin := hsound.emin
  have hemax := hsound.emax
  have hcoefficient := (value_eq_natCast_iff h).mp hn
  have hrange : ctx.etiny ≤ 0 ∧ 0 ≤ ctx.emax := ⟨by unfold Context.etiny; omega, by omega⟩
  unfold quantize
  rw [if_neg (not_not.mpr hrange)]
  by_cases hzero : n = 0
  · subst hzero
    rw [Nat.zero_mul] at hcoefficient
    rw [if_pos hcoefficient, if_pos (by positivity)]
  · have hne : d.coefficient ≠ 0 := by
      rw [hcoefficient]
      exact Nat.mul_ne_zero hzero (by positivity)
    have hadjusted : d.adjusted = digitCount n - 1 := by
      rw [adjusted, hcoefficient, digitCount_mul_pow hzero]
      push_cast
      omega
    have hrescale : d.rescale 0 = ⟨n, 0⟩ := by
      rcases h.lt_or_eq with hneg | heq
      · have hk : (0 - d.exponent).toNat = (-d.exponent).toNat := by omega
        rw [rescale_of_lt hneg, hcoefficient, hk, halfEven_mul _ (by positivity)]
      · rw [rescale_of_le heq.ge, hcoefficient, heq]
        simp
    rw [if_neg hne, hadjusted, hrescale]
    by_cases hlt : n < 10 ^ ctx.prec
    · have hcount := (digitCount_le_iff hprec).mpr hlt
      have hans : adjusted ⟨n, 0⟩ = digitCount n - 1 := by simp [adjusted]
      rw [if_pos hlt, if_neg (by omega), if_neg (by omega)]
      simp only
      rw [hans, if_neg (by omega), if_neg (by omega)]
    · have hcount := mt (digitCount_le_iff hprec).mp hlt
      rw [if_neg hlt]
      split_ifs
      · rfl
      · rfl
      · omega

end

/-! ## Reading -/

section

variable {digit : ℕ → Option ℕ}

/-- The number that decimal digits write. -/
def ofDigits (xs : List ℕ) : ℕ := xs.foldl (fun n x => 10 * n + x) 0

theorem digitsFrom_eq {s : Str} {xs : List ℕ} (h : s.map digit = xs.map some) (n : ℕ) :
    digitsFrom digit n s = some (xs.foldl (fun n x => 10 * n + x) n) := by
  induction s generalizing n xs with
  | nil =>
      cases xs with
      | nil => rfl
      | cons x xs => cases h
  | cons c s ih =>
      cases xs with
      | nil => cases h
      | cons x xs =>
          obtain ⟨hc, hs⟩ := List.cons.inj h
          rw [digitsFrom, hc]
          exact ih hs _

/-- Digits, and where there is a fraction, a point and more digits. -/
theorem ofText_eq {whole fraction : Str} {xs ys : List ℕ} (hne : whole ≠ []) (hwhole : whole.map digit = xs.map some)
    (hfraction : fraction.map digit = ys.map some) (hpoint : 46 ∉ whole) :
    ofText digit (whole ++ if fraction = [] then [] else 46 :: fraction) = some ⟨ofDigits (xs ++ ys), -fraction.length⟩ := by
  have hall : ∀ c ∈ whole, decide (c ≠ 46) = true := by
    intro c hc
    simpa using fun heq : c = 46 => hpoint (heq ▸ hc)
  have hdigits : (whole ++ fraction).map digit = (xs ++ ys).map some := by
    rw [List.map_append, List.map_append, hwhole, hfraction]
  have htake : (whole ++ if fraction = [] then [] else 46 :: fraction).takeWhile (· ≠ 46) = whole := by
    rw [List.takeWhile_append_of_pos hall]
    split <;> simp
  have hdrop : ((whole ++ if fraction = [] then [] else 46 :: fraction).dropWhile (· ≠ 46)).drop 1 = fraction := by
    rw [List.dropWhile_append_of_pos hall]
    split
    · rename_i hnil
      simp [hnil]
    · simp
  unfold ofText
  simp only [htake, hdrop]
  rw [if_neg (by simp [hne]), digitsFrom_eq hdigits]
  rfl

end

end Decimal
