import Mathlib.Data.Option.Basic
import Mathlib.Order.Basic
import Mathlib.Order.ConditionallyCompleteLattice.Basic
import Mathlib.Data.Int.ConditionallyCompleteOrder

/-! # Versioned rows

A row that is only ever replaced under a condition on its version, by one of a
greater version, is the same row wherever the same version is found again. -/

namespace RowStore

variable {α β : Type} [Preorder β]

/-- What may become of a row that is never removed: it stays, or is replaced by
one of a greater version. -/
def Newer (version : α → β) : Option α → Option α → Prop
  | none, _ => True
  | some _, none => False
  | some a, some b => a = b ∨ version a < version b

namespace Newer

variable {version : α → β} {x y z : Option α} {a b : α}

theorem refl (version : α → β) : ∀ x, Newer version x x
  | none => trivial
  | some _ => .inl rfl

theorem trans (hxy : Newer version x y) (hyz : Newer version y z) : Newer version x z := by
  rcases x with _ | a
  · trivial
  rcases y with _ | b
  · exact hxy.elim
  rcases z with _ | c
  · exact hyz.elim
  rcases hxy with rfl | hab
  · exact hyz
  · rcases hyz with rfl | hbc
    · exact .inr hab
    · exact .inr (hab.trans hbc)

theorem exists_some (h : Newer version (some a) y) : ∃ b, y = some b := by
  cases y with
  | none => exact h.elim
  | some b => exact ⟨b, rfl⟩

/-- Finding the version again means finding the row again. -/
theorem eq_of_version (h : Newer version (some a) (some b)) (hv : version b = version a) :
    b = a := by
  rcases h with rfl | hlt
  · rfl
  · exact absurd hv hlt.ne'

theorem version_le (h : Newer version (some a) (some b)) : version a ≤ version b := by
  rcases h with rfl | hlt
  · exact le_rfl
  · exact hlt.le

/-- A condition on the version, evaluated later, holds only on the row that was
read. -/
theorem eq_of_condition [DecidableEq β] (h : Newer version (some a) y)
    (hc : y.any (fun b => version b = version a) = true) : y = some a := by
  obtain ⟨b, rfl⟩ := h.exists_some
  exact congrArg some (h.eq_of_version (by simpa using hc))

end Newer

end RowStore
