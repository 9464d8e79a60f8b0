import Stoa.Model.Values

/-! # Account fences

Every row of an account is written under a check of its fence, which account
deletion closes. -/

namespace Stoa

structure FenceRow where
  status : String
  generation : Option ℤ
  deriving DecidableEq, Repr

/-- The condition check on the fence, with or without an expected generation. -/
def activeFenceCondition (generation : Option ℤ) (stored : Option FenceRow) : Bool :=
  stored.any fun fence =>
    fence.status = "active" ∧ generation.all fun g => fence.generation = some g

/-- The generation of an account's fence; `none` when the account is not writable. -/
def requireActiveAccountFence (fence : Option FenceRow) (generation : Option ℤ) : Option ℤ :=
  match fence with
  | none => none
  | some fence =>
      let fenceGeneration := fence.generation.getD 0
      if fence.status ≠ "active" ∨ fenceGeneration ≤ 0 ∨
          generation.any (fun g => fenceGeneration ≠ g) then none
      else some fenceGeneration

/-- The generation that is read passes the check while the fence stays. -/
theorem fence_generation {fence : Option FenceRow} {generation : ℤ}
    (h : requireActiveAccountFence fence none = some generation) :
    activeFenceCondition (some generation) fence = true := by
  unfold requireActiveAccountFence at h
  cases fence with
  | none => cases h
  | some fence =>
      dsimp only at h
      split at h
      · cases h
      · rename_i hactive
        simp only [Option.some_inj] at h
        cases hgeneration : fence.generation with
        | none => simp_all
        | some g => simp_all [activeFenceCondition]

end Stoa
