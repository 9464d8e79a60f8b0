import Stoa.Verification.PaidEntitlement.Operations
import Stoa.Verification.BillingFacts.Activations

/-! # What activations and upgrades commit -/

namespace Stoa.PaidEntitlement

open RowStore Billing
open Relationships hiding Key Row

variable {env : Env} {F : Faults} {I : Interference Billing.Key Billing.Row}
  {G : Table Billing.Key Billing.Row → Table Billing.Key Billing.Row → Prop}
  {t : Table Billing.Key Billing.Row}
  {own : List (Table Billing.Key Billing.Row × Table Billing.Key Billing.Row)}

/-! ## Publishing -/

theorem relationshipProofs_finds (parent : String) (students : List String) :
    Fetch.Finds (fun proofs => proofs.map Prod.fst = students)
      (relationshipProofs parent students) := by
  induction students with
  | nil => exact Fetch.finds_pure rfl
  | cons student rest ih =>
      refine Fetch.finds_bind fun proof => ih.bind fun proofs hproofs => Fetch.finds_pure ?_
      rw [List.map_cons, hproofs]

/-- The grants that an activation publishes, one for each student of its command. -/
inductive Published (r : PaidActivationRequest) (command : CommandRow) : List GrantItem → Prop where
  | of (subscription : Sha256) (selected : List String)
      (proofs : List (String × RelationshipProof))
      (scope : activationScope r command = .ok (subscription, selected))
      (students : proofs.map Prod.fst = selected) :
      Published r command
        (proofs.map fun (student, proof) => activatedGrant r subscription student proof)

theorem buildPaidActivationOperations_finds (r : PaidActivationRequest) (command : CommandRow) :
    Fetch.Finds (fun built => Published r command built.grantItems)
      (buildPaidActivationOperations r command) := by
  refine (Fetch.finds_of fun _ h => h).bind fun (subscription, selected) hscope => ?_
  refine (relationshipProofs_finds r.parentId selected).bind fun proofs hproofs => ?_
  exact Fetch.finds_pure (.of subscription selected proofs hscope hproofs)

theorem commitPaidActivation_safe {r : PaidActivationRequest} {command : CommandRow}
    {billingProjection allowanceItem : ProjectedItem}
    (hallowed : ∀ grantItems grantOperations, Published r command grantItems →
      r.Allowed G I ⟨billingProjection, grantItems, allowanceItem, grantOperations⟩) :
    (commitPaidActivation r command billingProjection allowanceItem).Safe F I G (Quiet _) own t := by
  refine (buildPaidActivationOperations_finds r command).safe_run accounts _
    fun outcome u hbuilt _ => ?_
  cases outcome with
  | error failure => cases failure <;> trivial
  | ok built => exact Billing.commitPaidActivation_safe (hallowed _ _ (hbuilt built rfl))

/-! ## Raising -/

theorem UpgradeRequest.proofs_finds (r : UpgradeRequest) (grants : List GrantRow) :
    Fetch.Finds (fun found => ∀ proofs, found = some proofs →
      proofs.map Prod.fst = grants ∧ ∀ grant ∈ grants, r.raises grant = true)
      (r.proofs grants) := by
  induction grants with
  | nil => exact Fetch.finds_pure (by rintro proofs ⟨⟩; simp)
  | cons grant rest ih =>
      unfold UpgradeRequest.proofs
      split
      · exact Fetch.finds_pure nofun
      rename_i hraises
      refine Fetch.finds_bind fun proof => ih.bind fun found hfound => Fetch.finds_pure ?_
      intro proofs hproofs
      obtain ⟨others, rfl, rfl⟩ := Option.map_eq_some_iff.mp hproofs
      obtain ⟨hgrants, hall⟩ := hfound others rfl
      exact ⟨by rw [List.map_cons, hgrants],
        List.forall_mem_cons.mpr ⟨not_not.mp hraises, hall⟩⟩

/-- The transaction of an upgrade is allowed wherever it is admitted. -/
def UpgradeRequest.Allowed (env : Env)
    (G : Table Billing.Key Billing.Row → Table Billing.Key Billing.Row → Prop)
    (I : Interference Billing.Key Billing.Row) (r : UpgradeRequest) : Prop :=
  ∀ selected proofs, r.checked = .ok selected → (∀ x ∈ proofs, r.raises x.1 = true) →
    ∀ u, I.Inv u →
      Accepted I r.parentId (fun beneficiary item => activeGrant item r.parentId beneficiary)
        selected (proofs.map Prod.fst) u →
      u.Admits (r.operations env proofs true) → G u (u.apply (r.operations env proofs true))

theorem readGrants_readOnly (parent : String)
    (accept : String → Option GrantRow → Option GrantRow) (beneficiaries : List String) :
    (readGrants parent accept beneficiaries).ReadOnly := by
  induction beneficiaries with
  | nil => trivial
  | cons beneficiary rest ih =>
      rintro (_ | item)
      · trivial
      dsimp only
      split
      · trivial
      · refine ih.bind fun outcome => ?_
        cases outcome <;> trivial

theorem UpgradeRequest.refresh_readOnly (r : UpgradeRequest) (selected : List String) :
    (r.refresh selected).ReadOnly := by
  refine (readGrants_readOnly _ _ selected).bind fun outcome => ?_
  rcases outcome with failure | _ | replayed <;> trivial

theorem UpgradeRequest.submit_safe {r : UpgradeRequest} (hallowed : r.Allowed env G I)
    {selected : List String} (hselected : r.checked = .ok selected) {grants : List GrantRow}
    (haccepted : Accepted I r.parentId
      (fun beneficiary item => activeGrant item r.parentId beneficiary) selected grants t) :
    (r.submit env selected grants).Safe F I G (Quiet _) own t := by
  refine (r.proofs_finds grants).safe_run accounts _ fun outcome u hfound hu => ?_
  rcases outcome with failure | _ | proofs
  · cases failure <;> trivial
  · trivial
  obtain ⟨hgrants, hraises⟩ := hfound _ rfl proofs rfl
  refine Program.safe_transact (fun _ _ _ => (r.refresh_readOnly selected).safe)
    fun v hv hinv hadmits => ⟨?_, trivial, (r.refresh_readOnly selected).safe⟩
  refine hallowed selected proofs hselected ?_ v hinv ?_ hadmits
  · exact fun x hx => hraises x.1 (hgrants ▸ List.mem_map_of_mem hx)
  · exact hgrants ▸ (haccepted.rely hu).rely hv

theorem applyPaidUpgrade_safe {r : UpgradeRequest} (hallowed : r.Allowed env G I) :
    (applyPaidUpgrade env r).Safe F I G (Quiet _) own t := by
  unfold applyPaidUpgrade
  split
  · trivial
  rename_i selected hselected
  unfold UpgradeRequest.run
  rw [Program.safe_bind]
  refine (readGrants_safe r.parentId _ selected (S := fun _ => True) (fun _ _ _ _ => trivial)
    trivial).mono (fun _ _ _ hg => hg) fun outcome own u hread => ?_
  obtain ⟨-, hgrants⟩ := hread
  rcases outcome with failure | _ | grants
  · trivial
  · trivial
  dsimp only
  split
  · trivial
  · exact UpgradeRequest.submit_safe hallowed hselected (hgrants grants rfl)

end Stoa.PaidEntitlement
