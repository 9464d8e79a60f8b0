import Mathlib.Data.List.Basic
import Mathlib.Data.Int.Basic
import Mathlib.Logic.Function.Basic
import Mathlib.Tactic.Common
import Mathlib.Algebra.Group.Nat.Defs
import Mathlib.Algebra.Group.Int.Defs

/-! # Byte strings that are read back in one way

Values written one after the other, each with its length before it or of a fixed
width, can be told apart again; optional values need a byte that marks them. -/

namespace Framing

abbrev Bytes := List UInt8

/-- `str.encode("utf-8")` -/
def utf8 (text : String) : Bytes := text.toByteArray.data.toList

theorem utf8_injective : Function.Injective utf8 := by
  intro a b h
  have hdata : a.toByteArray.data = b.toByteArray.data := Array.toList_inj.mp h
  exact String.toByteArray_inj.mp (ByteArray.ext hdata)

/-- `struct.pack(">I", n)`, which raises beyond 32 bits. -/
def packUnsigned (n : ℕ) : Option Bytes :=
  if n < 2 ^ 32 then
    some [UInt8.ofNat (n / 2 ^ 24), UInt8.ofNat (n / 2 ^ 16), UInt8.ofNat (n / 2 ^ 8), UInt8.ofNat n]
  else none

/-- `struct.pack(">i", n)` -/
def packSigned (n : ℤ) : Option Bytes :=
  if -2 ^ 31 ≤ n ∧ n < 2 ^ 31 then packUnsigned (n % 2 ^ 32).toNat else none

/-- `_frame`: the length of a text, and the text. -/
def frame (value : String) : Option Bytes := do
  let encoded := utf8 value
  return (← packUnsigned encoded.length) ++ encoded

/-! ## Encodings that end by themselves -/

section

variable {α β : Type}

/-- The bytes of a value say where they end, whatever follows them. -/
def PrefixFree (encode : α → Option Bytes) : Prop :=
  ∀ ⦃a b : α⦄ ⦃x y s t : Bytes⦄, encode a = some x → encode b = some y → x ++ s = y ++ t →
    a = b ∧ s = t

variable {encode : α → Option Bytes} {other : β → Option Bytes}

/-- Bytes that are as many for all values. -/
theorem PrefixFree.of_length {n : ℕ} (hlength : ∀ a x, encode a = some x → x.length = n)
    (hinj : ∀ a b x, encode a = some x → encode b = some x → a = b) : PrefixFree encode := by
  intro a b x y s t ha hb h
  obtain ⟨hxy, hst⟩ := List.append_inj h ((hlength a x ha).trans (hlength b y hb).symm)
  subst hxy
  exact ⟨hinj a b x ha hb, hst⟩

/-- The encoding of what a value is made of. -/
theorem PrefixFree.comp (h : PrefixFree other) {f : α → β} (hf : Function.Injective f) :
    PrefixFree fun a => other (f a) := by
  intro a b x y s t ha hb hxy
  obtain ⟨hab, hst⟩ := h ha hb hxy
  exact ⟨hf hab, hst⟩

/-- One value after the other. -/
def both (encode : α → Option Bytes) (other : β → Option Bytes) (p : α × β) : Option Bytes := do
  return (← encode p.1) ++ (← other p.2)

theorem both_eq_some {p : α × β} {x : Bytes} :
    both encode other p = some x ↔ ∃ y z, encode p.1 = some y ∧ other p.2 = some z ∧ y ++ z = x := by
  simp [both, Option.bind_eq_some_iff]

theorem PrefixFree.both (h : PrefixFree encode) (h' : PrefixFree other) :
    PrefixFree (both encode other) := by
  rintro ⟨a, a'⟩ ⟨b, b'⟩ x y s t ha hb hxy
  rw [both_eq_some] at ha hb
  obtain ⟨x₁, x₂, hx₁, hx₂, rfl⟩ := ha
  obtain ⟨y₁, y₂, hy₁, hy₂, rfl⟩ := hb
  rw [List.append_assoc, List.append_assoc] at hxy
  obtain ⟨rfl, hrest⟩ := h hx₁ hy₁ hxy
  obtain ⟨rfl, hst⟩ := h' hx₂ hy₂ hrest
  exact ⟨rfl, hst⟩

/-- All values of a list, one after the other. -/
def each (encode : α → Option Bytes) : List α → Option Bytes
  | [] => some []
  | a :: values => do return (← encode a) ++ (← each encode values)

theorem each_cons_eq_some {a : α} {values : List α} {x : Bytes} :
    each encode (a :: values) = some x ↔
      ∃ y z, encode a = some y ∧ each encode values = some z ∧ y ++ z = x := by
  simp [each, Option.bind_eq_some_iff]

/-- Lists of one length are told apart by their values. -/
theorem PrefixFree.each (h : PrefixFree encode) {as bs : List α} (hlength : as.length = bs.length)
    {x y s t : Bytes} (ha : each encode as = some x) (hb : Framing.each encode bs = some y)
    (hxy : x ++ s = y ++ t) : as = bs ∧ s = t := by
  induction as generalizing bs x y with
  | nil =>
      obtain rfl := List.length_eq_zero_iff.mp hlength.symm
      cases ha
      cases hb
      exact ⟨rfl, hxy⟩
  | cons a as ih =>
      cases bs with
      | nil => cases hlength
      | cons b bs =>
          rw [each_cons_eq_some] at ha hb
          obtain ⟨x₁, x₂, hx₁, hx₂, rfl⟩ := ha
          obtain ⟨y₁, y₂, hy₁, hy₂, rfl⟩ := hb
          rw [List.append_assoc, List.append_assoc] at hxy
          obtain ⟨rfl, hrest⟩ := h hx₁ hy₁ hxy
          obtain ⟨rfl, hst⟩ := ih (Nat.succ.inj hlength) hx₂ hy₂ hrest
          exact ⟨rfl, hst⟩

/-- A list after the number of its values. -/
def counted (encode : α → Option Bytes) (values : List α) : Option Bytes := do
  return (← packUnsigned values.length) ++ (← each encode values)

/-- A value that may be missing, after a byte that marks it. -/
def marked (marker : UInt8) (encode : α → Option Bytes) : Option α → Option Bytes
  | none => some []
  | some a => do return marker :: (← encode a)

theorem marked_some_eq_some {marker : UInt8} {a : α} {x : Bytes} :
    marked marker encode (some a) = some x ↔ ∃ y, encode a = some y ∧ marker :: y = x := by
  simp [marked, Option.bind_eq_some_iff]

/-- A value that may be missing is told by its marker from what follows, if that does
not begin with the marker as well. -/
theorem PrefixFree.marked (h : PrefixFree encode) {marker : UInt8} {a b : Option α} {x y s t : Bytes}
    (ha : marked marker encode a = some x) (hb : Framing.marked marker encode b = some y)
    (hs : s.head? ≠ some marker) (ht : t.head? ≠ some marker) (hxy : x ++ s = y ++ t) :
    a = b ∧ s = t := by
  cases a with
  | none =>
      cases ha
      cases b with
      | none =>
          cases hb
          exact ⟨rfl, hxy⟩
      | some b =>
          rw [marked_some_eq_some] at hb
          obtain ⟨y, -, rfl⟩ := hb
          exact absurd (congrArg List.head? hxy) hs
  | some a =>
      rw [marked_some_eq_some] at ha
      obtain ⟨x, hx, rfl⟩ := ha
      cases b with
      | none =>
          cases hb
          exact absurd (congrArg List.head? hxy).symm ht
      | some b =>
          rw [marked_some_eq_some] at hb
          obtain ⟨y, hy, rfl⟩ := hb
          obtain ⟨rfl, hst⟩ := h hx hy (List.cons.inj hxy).2
          exact ⟨rfl, hst⟩

end

/-! ## Numbers and texts -/

theorem packUnsigned_inj {m n : ℕ} {x : Bytes} (hm : packUnsigned m = some x)
    (hn : packUnsigned n = some x) : m = n := by
  unfold packUnsigned at hm hn
  split at hm
  · split at hn
    · cases hm
      simp only [Option.some.injEq, List.cons.injEq, ← UInt8.toNat_inj, UInt8.toNat_ofNat'] at hn
      omega
    · cases hn
  · cases hm

theorem length_packUnsigned {n : ℕ} {x : Bytes} (h : packUnsigned n = some x) : x.length = 4 := by
  unfold packUnsigned at h
  split at h
  · cases h
    rfl
  · cases h

theorem prefixFree_packUnsigned : PrefixFree packUnsigned :=
  PrefixFree.of_length (fun _ _ => length_packUnsigned) fun _ _ _ => packUnsigned_inj

theorem prefixFree_packSigned : PrefixFree packSigned := by
  refine PrefixFree.of_length (n := 4) (fun n x h => ?_) fun m n x hm hn => ?_
  · unfold packSigned at h
    split at h
    · exact length_packUnsigned h
    · cases h
  · unfold packSigned at hm hn
    split at hm
    · split at hn
      · have := packUnsigned_inj hm hn
        omega
      · cases hn
    · cases hm

theorem prefixFree_frame : PrefixFree frame := by
  intro a b x y s t ha hb h
  simp only [frame, Option.pure_def, Option.bind_eq_bind, Option.bind_eq_some_iff, Option.some.injEq] at ha hb
  obtain ⟨x, hx, rfl⟩ := ha
  obtain ⟨y, hy, rfl⟩ := hb
  rw [List.append_assoc, List.append_assoc] at h
  obtain ⟨hlength, hrest⟩ := prefixFree_packUnsigned hx hy h
  obtain ⟨htext, hst⟩ := List.append_inj hrest hlength
  exact ⟨utf8_injective htext, hst⟩

theorem PrefixFree.counted {α : Type} {encode : α → Option Bytes} (h : PrefixFree encode) :
    PrefixFree (counted encode) := by
  intro as bs x y s t ha hb hxy
  simp only [Framing.counted, Option.pure_def, Option.bind_eq_bind, Option.bind_eq_some_iff, Option.some.injEq]
    at ha hb
  obtain ⟨x, hx, x', hx', rfl⟩ := ha
  obtain ⟨y, hy, y', hy', rfl⟩ := hb
  rw [List.append_assoc, List.append_assoc] at hxy
  obtain ⟨hlength, hrest⟩ := prefixFree_packUnsigned hx hy hxy
  exact h.each hlength hx' hy' hrest

end Framing
