import Stoa.Model.BillingFacts

/-! # What an activation commits

An activation reads facts and receipts, and submits one transaction. -/

namespace Stoa.Billing

open RowStore

variable {F : Faults} {I : Interference Key Row} {G : Table Key Row → Table Key Row → Prop}
  {t : Table Key Row} {own : List (Table Key Row × Table Key Row)}

theorem PaidActivationRequest.refresh_readOnly (r : PaidActivationRequest) :
    r.refresh.ReadOnly := by
  rintro (_ | replay)
  · trivial
  rintro (_ | command)
  · trivial
  dsimp only
  split
  · trivial
  · split <;> trivial

theorem loadActivationFacts_readOnly (commandId : String) :
    (loadActivationFacts commandId).ReadOnly := by
  unfold loadActivationFacts
  split
  · trivial
  rintro (_ | rows)
  · trivial
  · dsimp only
    split <;> trivial

/-- The transaction of an activation is allowed wherever it is admitted. -/
def PaidActivationRequest.Allowed (G : Table Key Row → Table Key Row → Prop)
    (I : Interference Key Row) (r : PaidActivationRequest) (items : ActivationItems) : Prop :=
  r.checkItems items = .ok () → ∀ u, I.Inv u → u.Admits (r.operations items) →
    G u (u.apply (r.operations items))

theorem PaidActivationRequest.commitWith_safe {r : PaidActivationRequest} {items : ActivationItems}
    (hitems : r.checkItems items = .ok ()) (hallowed : r.Allowed G I items)
    (facts : List BillingFact) :
    (r.commitWith items facts).Safe F I G (fun _ _ _ => True) own t := by
  unfold commitWith
  split
  · trivial
  refine Program.safe_read fun t₁ _ _ => ⟨?_, fun _ => trivial⟩
  cases t₁.row (.activationReceipt r.commandId r.activationVersion) with
  | some prior => trivial
  | none =>
    dsimp only
    unfold submit
    split
    · exact Program.safe_transact (fun _ _ _ => r.refresh_readOnly.safe) fun t₂ _ hinv hadmits =>
        ⟨hallowed hitems t₂ hinv hadmits, trivial, r.refresh_readOnly.safe⟩
    · trivial

theorem commitPaidActivation_safe {r : PaidActivationRequest} {items : ActivationItems}
    (hallowed : r.Allowed G I items) :
    (commitPaidActivation r items).Safe F I G (fun _ _ _ => True) own t := by
  unfold commitPaidActivation
  split
  · trivial
  · trivial
  rename_i hitems
  refine (Program.safe_bind _ _ _ _).mpr ?_
  refine (loadActivationFacts_readOnly r.commandId).safe.mono (fun _ _ _ hg => hg)
    fun loaded own u _ => ?_
  cases loaded with
  | error failure => trivial
  | ok facts => exact PaidActivationRequest.commitWith_safe hitems hallowed facts

end Stoa.Billing
