import Stoa.Verification.PaidEntitlement.Transactions
import Stoa.Verification.PaidEntitlement.Grants
import Stoa.Store.Solo

/-! # Whether grant versions only go up

An upgrade compares all three versions of the grant that it replaces. An
activation compares the activation version alone, and a transition the plan
version, yet it stamps all three. -/

namespace Stoa.PaidEntitlement

open RowStore Billing

variable {env : Env}

/-! ## The calls -/

inductive Call where
  | transition (c : TransitionCall)
  | activate (r : PaidActivationRequest) (command : CommandRow)
      (billingProjection allowanceItem : ProjectedItem)
  | upgrade (r : UpgradeRequest)

inductive Result where
  | transition (outcome : Except Failure PaidTransitionResult)
  | activation (outcome : Except Failure ActivationResult)
  | upgrade (outcome : Except Failure PaidGrantDisposition)

def Call.body (env : Env) : Call → Program Key Row Result
  | .transition c => (c.body env).bind fun outcome => .ret (.transition outcome)
  | .activate r command billingProjection allowanceItem =>
    (commitPaidActivation r command billingProjection allowanceItem).bind fun outcome =>
      .ret (.activation outcome)
  | .upgrade r => (applyPaidUpgrade env r).bind fun outcome => .ret (.upgrade outcome)

/-- All calls, and other code that leaves grants and transitions alone. -/
def service (env : Env) (faults : Faults) : Service Key Row Call Result where
  body := Call.body env
  mayStart := fun _ _ => True
  drift := fun t t' => t'.AgreesOn IsEntitlement t
  faults := faults

/-! ## What they commit -/

/-- Only the transitions are known to get newer. -/
def entitlements : Interference Key Row where
  Inv := fun _ => True
  Rely := TransitionsNewer
  refl := .refl
  trans := .trans

inductive Call.Transaction (env : Env) (t : Table Key Row) : Call → List (Write Key Row) → Prop where
  | transition (c : TransitionCall) (ops : List (Write Key Row))
      (submitted : c.Transaction env entitlements t ops) : Transaction env t (.transition c) ops
  | activated (r : PaidActivationRequest) (command : CommandRow)
      (billingProjection allowanceItem : ProjectedItem) (grantItems : List GrantItem)
      (grantOperations : List ConditionCheck) (published : Published r command grantItems) :
      Transaction env t (.activate r command billingProjection allowanceItem)
        (r.operations ⟨billingProjection, grantItems, allowanceItem, grantOperations⟩)
  | raised (r : UpgradeRequest) (proofs : List (Relationships.GrantRow × Relationships.RelationshipProof))
      (raises : ∀ x ∈ proofs, r.raises x.1 = true) :
      Transaction env t (.upgrade r) (r.operations env proofs true)

def Call.Move (env : Env) (c : Call) (t t' : Table Key Row) : Prop :=
  ∃ ops, c.Transaction env t ops ∧ t.Admits ops ∧ t' = t.apply ops

theorem Call.body_safe {F : Faults} (c : Call) {own : List (Table Key Row × Table Key Row)}
    {t : Table Key Row} :
    (c.body env).Safe F entitlements (c.Move env) (Quiet _) own t := by
  cases c with
  | transition c =>
      refine (Program.safe_bind _ _ _ _).mpr ((c.body_safe fun h => h).mono ?_ fun _ _ _ _ => trivial)
      rintro u u' _ ⟨ops, hsubmitted, hadmits, rfl⟩
      exact ⟨ops, .transition c ops hsubmitted, hadmits, rfl⟩
  | activate r command billingProjection allowanceItem =>
      refine (Program.safe_bind _ _ _ _).mpr ((commitPaidActivation_safe ?_).mono
        (fun _ _ _ hg => hg) fun _ _ _ _ => trivial)
      intro grantItems grantOperations hpublished _ u _ hadmits
      exact ⟨_, .activated r command _ _ grantItems grantOperations hpublished, hadmits, rfl⟩
  | upgrade r =>
      refine (Program.safe_bind _ _ _ _).mpr ((applyPaidUpgrade_safe ?_).mono
        (fun _ _ _ hg => hg) fun _ _ _ _ => trivial)
      intro selected proofs _ hraises u _ _ hadmits
      exact ⟨_, .raised r proofs hraises, hadmits, rfl⟩

/-! ## The grants of an activation -/

section

variable {r : PaidActivationRequest} {command : CommandRow} {items : ActivationItems}
  {t : Table Key Row}

/-- An activation writes nothing of a part but the grants that it publishes. -/
theorem activation_frame (part : Key → Prop) (t : Table Key Row)
    (hcommand : ¬ part (.command r.commandId))
    (hprojection : ¬ part (.projection items.billingProjection.owner))
    (hallowance : ¬ part (.allowancePlan items.allowanceItem.owner))
    (hreceipt : ¬ part (.activationReceipt r.commandId r.activationVersion))
    (hgrants : ∀ grant ∈ items.grantItems, ¬ part (.account (.grant grant.owner grant.student))) :
    (t.apply (r.operations items)).AgreesOn part t := by
  refine Table.AgreesOn.apply_frame t fun w hw => ?_
  simp only [PaidActivationRequest.operations, List.cons_append, List.mem_cons, List.mem_append,
    List.mem_map, List.not_mem_nil, or_false] at hw
  rcases hw with rfl | ⟨check, -, rfl⟩ | rfl | ⟨grant, hgrant, rfl⟩ | rfl | rfl
  · exact .inr hcommand
  · exact .inl rfl
  · exact .inr hprojection
  · exact .inr (hgrants grant hgrant)
  · exact .inr hallowance
  · exact .inr hreceipt

/-- The versions of a grant that has just been activated. -/
structure IsActivatedBy (r : PaidActivationRequest) (grant : Relationships.GrantRow) : Prop where
  grantVersion : grant.grantVersion = r.activationVersion
  planVersion : grant.planVersion = r.planVersion
  allowanceVersion : grant.allowanceVersion = r.allowanceVersion
  activationVersion : grant.activationVersion = r.activationVersion

theorem selected_perm {subscription : Sha256} {selected : List String}
    (h : activationScope r command = .ok (subscription, selected)) :
    selected.Perm command.beneficiaryIds := by
  obtain ⟨found, hselected, h⟩ := bind_eq_ok.mp h
  have hfound : found = selected := by
    split at h
    · cases h
    · split at h <;> cases h
      rfl
  subst hfound
  unfold validateBeneficiarySelection at hselected
  split at hselected
  · cases hselected
  obtain ⟨checked, hchecked, hselected⟩ := bind_eq_ok.mp hselected
  rw [← mapM_eq_ok eq_of_requireText hchecked]
  have hsorted : checked.insertionSort (· ≤ ·) = found := by
    split at hselected
    · cases hselected
    · split at hselected
      all_goals
        split at hselected
        · exact Except.ok.inj hselected
        · cases hselected
  exact hsorted ▸ List.perm_insertionSort _ _

/-- The grants of an activation are those of its beneficiaries. -/
theorem Published.mem {grantItems : List GrantItem} (h : Published r command grantItems)
    {item : GrantItem} (hitem : item ∈ grantItems) :
    item.owner = r.parentId ∧ item.student ∈ command.beneficiaryIds ∧
      IsActivatedBy r item.row := by
  cases h with
  | of subscription selected proofs scope students =>
      obtain ⟨x, hx, rfl⟩ := List.mem_map.mp hitem
      refine ⟨rfl, ?_, rfl, rfl, rfl, rfl⟩
      exact (selected_perm scope).mem_iff.mp (students ▸ List.mem_map_of_mem hx)

theorem Published.exists_item {grantItems : List GrantItem} (h : Published r command grantItems)
    {student : String} (hmem : student ∈ command.beneficiaryIds) :
    ∃ item ∈ grantItems, item.student = student := by
  cases h with
  | of subscription selected proofs scope students =>
      have hselected := (selected_perm scope).mem_iff.mpr hmem
      rw [← students] at hselected
      obtain ⟨x, hx, hstudent⟩ := List.mem_map.mp hselected
      exact ⟨_, List.mem_map_of_mem hx, hstudent⟩

theorem grant_mem_operations {item : GrantItem} (hitem : item ∈ items.grantItems) :
    Write.put (.account (.grant item.owner item.student)) item.row
      (Option.all fun row => r.IsNewer row.activationVersion) ∈ r.operations items := by
  simp only [PaidActivationRequest.operations, List.cons_append, List.mem_cons, List.mem_append,
    List.mem_map]
  exact .inr (.inr (.inr (.inl ⟨item, hitem, rfl⟩)))

/-- An activation replaces the grant of every beneficiary, if it has an older one. -/
theorem Published.row {billingProjection allowanceItem : ProjectedItem}
    {grantItems : List GrantItem} {grantOperations : List ConditionCheck}
    (h : Published r command grantItems)
    (hadmits : t.Admits
      (r.operations ⟨billingProjection, grantItems, allowanceItem, grantOperations⟩))
    {student : String} (hmem : student ∈ command.beneficiaryIds) :
    ∃ grant, IsActivatedBy r grant ∧
      (t.apply (r.operations ⟨billingProjection, grantItems, allowanceItem, grantOperations⟩)).row
        (.account (.grant r.parentId student)) = some grant ∧
      ∀ stored, t.row (.account (.grant r.parentId student)) = some stored →
        stored.activationVersion < r.activationVersion := by
  obtain ⟨item, hitem, rfl⟩ := h.exists_item hmem
  obtain ⟨howner, -, hversions⟩ := h.mem hitem
  have hmet := hadmits.2 _ (grant_mem_operations hitem)
  refine ⟨item.row, hversions, ?_, fun stored hstored => ?_⟩
  · rw [← howner]
    exact Table.row_apply_of_mem t hadmits.1 (grant_mem_operations hitem)
  · simp only [Write.put] at hmet
    rw [howner, hstored, Option.all_some] at hmet
    exact of_decide_eq_true hmet

end

/-! ## The grants of an upgrade -/

theorem UpgradeRequest.mem_operations {r : UpgradeRequest}
    {proofs : List (Relationships.GrantRow × Relationships.RelationshipProof)} {includeParent : Bool}
    {w : Write Key Row} (hw : w ∈ r.operations env proofs includeParent) :
    w.action = id ∨ ∃ x ∈ proofs,
      w = .put (.account (.grant r.parentId x.1.beneficiaryId)) (r.upgradedGrant env x.1 x.2)
        (Option.any (r.condition x.1)) := by
  induction proofs generalizing includeParent with
  | nil => cases hw
  | cons x rest ih =>
      rcases List.mem_append.mp hw with hw | hw
      · obtain ⟨check, -, rfl⟩ := List.mem_map.mp hw
        exact .inl rfl
      · rcases List.mem_cons.mp hw with rfl | hw
        · exact .inr ⟨x, List.mem_cons_self .., rfl⟩
        · rcases ih hw with hid | ⟨y, hy, rfl⟩
          · exact .inl hid
          · exact .inr ⟨y, List.mem_cons_of_mem _ hy, rfl⟩

/-! ## What happens to the versions -/

/-- A grant stays, or gives way to one of a greater grant version and of no lower
plan and allowance versions. -/
def Rises (grant grant' : Relationships.GrantRow) : Prop :=
  grant = grant' ∨ grant.grantVersion < grant'.grantVersion ∧
    grant.planVersion ≤ grant'.planVersion ∧ grant.allowanceVersion ≤ grant'.allowanceVersion

theorem Rises.trans {g g' g'' : Relationships.GrantRow} (h : Rises g g') (h' : Rises g' g'') :
    Rises g g'' := by
  rcases h with rfl | ⟨hgrant, hplan, hallowance⟩
  · exact h'
  · rcases h' with rfl | ⟨hgrant', hplan', hallowance'⟩
    · exact .inr ⟨hgrant, hplan, hallowance⟩
    · exact .inr ⟨hgrant.trans hgrant', hplan.trans hplan', hallowance.trans hallowance'⟩

/-- How a commit replaces the grant that is stored for a beneficiary. -/
inductive Call.Restamps (t : Table Key Row) (parent beneficiary : String) :
    Call → Option Relationships.GrantRow → Relationships.GrantRow → Prop where
  | published (r : PaidActivationRequest) (command : CommandRow)
      (billingProjection allowanceItem : ProjectedItem)
      (stored : Option Relationships.GrantRow) (grant : Relationships.GrantRow)
      (owner : r.parentId = parent) (student : beneficiary ∈ command.beneficiaryIds)
      (versions : IsActivatedBy r grant) :
      Restamps t parent beneficiary (.activate r command billingProjection allowanceItem) stored
        grant
  | raised (r : UpgradeRequest) (stored grant : Relationships.GrantRow)
      (active : stored.grantStatus = "active")
      (grantVersion : stored.grantVersion < grant.grantVersion)
      (planVersion : stored.planVersion < grant.planVersion)
      (allowanceVersion : stored.allowanceVersion < grant.allowanceVersion) :
      Restamps t parent beneficiary (.upgrade r) (some stored) grant
  | transitioned (r : ApplyRequest) (previous : TransitionRow)
      (stored grant : Relationships.GrantRow) (transition : t.row r.key.key = some previous)
      (owner : r.parentId = parent) (student : beneficiary ∈ previous.beneficiaryIds)
      (active : stored.grantStatus = "active")
      (older : stored.planVersion < previous.planVersion)
      (ended : previous.targetPlan = .freeTrial → grant.grantStatus = "historical")
      (grantVersion : grant.grantVersion = previous.planVersion)
      (planVersion : grant.planVersion = previous.planVersion)
      (allowanceVersion : grant.allowanceVersion = previous.planVersion) :
      Restamps t parent beneficiary (.transition (.applyDue r)) (some stored) grant

section

variable {c : Call} {t t' : Table Key Row}

theorem transitionPut_key (k : TransitionKey) (item : TransitionRow)
    (previous : Option TransitionRow) : (transitionPut k item previous).key = k.key := by
  cases previous <;> rfl

theorem row_apply_transitionPut {k : TransitionKey} {item : TransitionRow}
    {previous : Option TransitionRow} {key : Key} (hkey : key ≠ k.key) :
    (t.apply [transitionPut k item previous]).row key = t.row key := by
  rw [transitionPut_apply, Table.row_set_of_ne _ _ hkey]

/-- A grant that a commit replaces is restamped by its call. -/
theorem Call.Move.grant (h : c.Move env t t') (parent beneficiary : String) :
    t'.row (.account (.grant parent beneficiary)) = t.row (.account (.grant parent beneficiary)) ∨
      ∃ grant, t'.row (.account (.grant parent beneficiary)) = some grant ∧
        c.Restamps t parent beneficiary (t.row (.account (.grant parent beneficiary))) grant := by
  obtain ⟨ops, htransaction, hadmits, rfl⟩ := h
  cases htransaction with
  | transition c ops submitted =>
      cases submitted with
      | scheduled | graceStarted | graceCleared =>
          exact .inl (row_apply_transitionPut (by simp))
      | applied r previous beneficiaries grants version stored identity status due checked next
          accepted =>
          by_cases hmem : parent = r.parentId ∧ beneficiary ∈ beneficiaries
          · obtain ⟨rfl, hmem⟩ := hmem
            obtain ⟨grant, hgrant, hdue, -⟩ := accepted.exists_due hmem
            obtain ⟨found, hreplaces⟩ := r.replaces hadmits hgrant hdue
            obtain ⟨hactive, -, hplan, -⟩ := of_decide_eq_true hreplaces.condition
            obtain ⟨hv, hp, ha⟩ := r.updatedGrant_versions env previous grant
            refine .inr ⟨_, hreplaces.updated, ?_⟩
            rw [hreplaces.found]
            exact .transitioned r previous found _ stored rfl
              ((transitionBeneficiaries_perm checked).mem_iff.mp hmem)
              hactive (hplan ▸ hreplaces.due.older)
              (fun hfree => by rw [ApplyRequest.updatedGrant, if_pos hfree]) hv hp ha
          · refine .inl (r.row_apply_of_other accepted (fun he => by cases he)
              (fun b hb he => ?_) (fun _ _ _ _ _ he => by cases he))
            cases he
            exact hmem ⟨rfl, hb⟩
  | activated r command billingProjection allowanceItem grantItems grantOperations published =>
      by_cases hmem : parent = r.parentId ∧ beneficiary ∈ command.beneficiaryIds
      · obtain ⟨rfl, hmem⟩ := hmem
        obtain ⟨grant, hversions, hrow, -⟩ := published.row hadmits hmem
        exact .inr ⟨grant, hrow, .published r command _ _ _ grant rfl hmem hversions⟩
      · refine .inl (activation_frame (fun k => k = .account (.grant parent beneficiary)) t
          (by simp) (by simp) (by simp) (by simp) (fun item hitem he => ?_) _ rfl)
        obtain ⟨howner, hstudent, -⟩ := published.mem hitem
        cases he
        exact hmem ⟨howner, hstudent⟩
  | raised r proofs raises =>
      rcases Table.AgreesOn.row_apply_or_write t (r.operations env proofs true)
        (.account (.grant parent beneficiary)) with hsame | ⟨w, hw, hkey, hwrites⟩
      · exact .inl hsame
      rcases UpgradeRequest.mem_operations hw with hid | ⟨x, hx, rfl⟩
      · exact absurd hid hwrites
      cases hkey
      have hmet := hadmits.2 _ hw
      obtain ⟨stored, hstored, hcondition⟩ := (Option.any_eq_true _ _).mp hmet
      obtain ⟨hactive, hgrant, hplan, hallowance, -⟩ := of_decide_eq_true hcondition
      obtain ⟨-, -, hplan', hallowance', hgrant'⟩ := of_decide_eq_true (raises x hx)
      refine .inr ⟨_, Table.row_apply_of_mem t hadmits.1 hw, ?_⟩
      simp only [Write.put] at hstored ⊢
      rw [hstored]
      exact .raised r stored _ hactive (hgrant ▸ hgrant') (hplan ▸ hplan') (hallowance ▸ hallowance')

/-- What is retained has been replaced in the same commit, by a later plan version. -/
theorem Call.Move.history (h : c.Move env t t') {parent beneficiary : String} {version : ℤ}
    (hrow : (t'.row (.grantHistory parent beneficiary version)).isSome) :
    (t.row (.grantHistory parent beneficiary version)).isSome ∨
      ∃ stored grant, t.row (.account (.grant parent beneficiary)) = some stored ∧
        t'.row (.account (.grant parent beneficiary)) = some grant ∧
        stored.grantVersion = version ∧ stored.planVersion < grant.planVersion := by
  obtain ⟨ops, htransaction, hadmits, rfl⟩ := h
  cases htransaction with
  | transition c ops submitted =>
      cases submitted with
      | scheduled | graceStarted | graceCleared =>
          rw [row_apply_transitionPut (by simp)] at hrow
          exact .inl hrow
      | applied r previous beneficiaries grants number stored identity status due checked next
          accepted =>
          rcases Table.AgreesOn.row_apply_or_write t (r.operations env previous grants number)
            (.grantHistory parent beneficiary version) with hsame | ⟨w, hw, hkey, -⟩
          · exact .inl (hsame ▸ hrow)
          rcases ApplyRequest.mem_operations.mp hw with ⟨grant, hmem, hw⟩ | rfl
          · obtain ⟨student, hstudent, hdue⟩ := accepted.due_of_mem hmem
            rcases List.mem_pair.mp hw with rfl | rfl
            · obtain ⟨found, hreplaces⟩ := r.replaces hadmits hmem hdue
              obtain ⟨-, hgrant, hplan, -⟩ := of_decide_eq_true hreplaces.condition
              cases hkey
              rw [hdue.parent, hdue.beneficiary]
              refine .inr ⟨found, _, hreplaces.found, hreplaces.updated, hgrant, ?_⟩
              rw [(r.updatedGrant_versions env previous grant).2.1]
              exact hplan ▸ hdue.older
            · cases hkey
          · cases hkey
  | activated r command billingProjection allowanceItem grantItems grantOperations published =>
      refine .inl ?_
      rwa [activation_frame (fun k => k = .grantHistory parent beneficiary version) t
        (by simp) (by simp) (by simp) (by simp) (by simp) _ rfl] at hrow
  | raised r proofs raises =>
      rcases Table.AgreesOn.row_apply_or_write t (r.operations env proofs true)
        (.grantHistory parent beneficiary version) with hsame | ⟨w, hw, hkey, hwrites⟩
      · exact .inl (hsame ▸ hrow)
      rcases UpgradeRequest.mem_operations hw with hid | ⟨x, hx, rfl⟩
      · exact absurd hid hwrites
      · cases hkey

/-! ## When versions rise -/

/-- Every grant that is stored in `t` has only risen since. -/
def RisesTo (t u : Table Key Row) : Prop :=
  ∀ parent beneficiary grant, t.row (.account (.grant parent beneficiary)) = some grant →
    ∃ grant', u.row (.account (.grant parent beneficiary)) = some grant' ∧ Rises grant grant'

/-- The retained versions of a grant are below the stored one. -/
def HistoryBehind (t : Table Key Row) : Prop :=
  ∀ parent beneficiary version, (t.row (.grantHistory parent beneficiary version)).isSome →
    ∃ grant, t.row (.account (.grant parent beneficiary)) = some grant ∧
      version < grant.grantVersion

/-- The versions that a call stamps are above the stored ones where the call does
not compare them. -/
def Call.StampsAbove : Call → Table Key Row → Prop
  | .activate r command _ _, t =>
    ∀ beneficiary ∈ command.beneficiaryIds, ∀ grant,
      t.row (.account (.grant r.parentId beneficiary)) = some grant →
        grant.grantVersion < r.activationVersion ∧ grant.planVersion ≤ r.planVersion ∧
          grant.allowanceVersion ≤ r.allowanceVersion
  | .transition (.applyDue r), t =>
    ∀ transition, t.row r.key.key = some transition →
      ∀ beneficiary ∈ transition.beneficiaryIds, ∀ grant,
        t.row (.account (.grant r.parentId beneficiary)) = some grant →
          grant.grantVersion < transition.planVersion ∧
            grant.allowanceVersion ≤ transition.planVersion
  | _, _ => True

theorem RisesTo.refl (t : Table Key Row) : RisesTo t t :=
  fun _ _ grant hrow => ⟨grant, hrow, .inl rfl⟩

theorem RisesTo.trans {u v : Table Key Row} (h : RisesTo t u) (h' : RisesTo u v) : RisesTo t v := by
  intro parent beneficiary grant hrow
  obtain ⟨grant', hrow', hrises⟩ := h parent beneficiary grant hrow
  obtain ⟨grant'', hrow'', hrises'⟩ := h' parent beneficiary grant' hrow'
  exact ⟨grant'', hrow'', hrises.trans hrises'⟩

theorem Call.Restamps.rises {parent beneficiary : String} {stored grant : Relationships.GrantRow}
    (h : c.Restamps t parent beneficiary (some stored) grant) (hc : c.StampsAbove t)
    (hstored : t.row (.account (.grant parent beneficiary)) = some stored) :
    Rises stored grant := by
  refine .inr ?_
  cases h with
  | published r command billingProjection allowanceItem _ _ owner student versions =>
      subst owner
      rw [versions.grantVersion, versions.planVersion, versions.allowanceVersion]
      exact hc beneficiary student stored hstored
  | raised r _ _ active grantVersion planVersion allowanceVersion =>
      exact ⟨grantVersion, planVersion.le, allowanceVersion.le⟩
  | transitioned r previous _ _ transition owner student active older ended grantVersion planVersion
      allowanceVersion =>
      subst owner
      obtain ⟨hgrant, hallowance⟩ := hc previous transition beneficiary student stored hstored
      rw [grantVersion, planVersion, allowanceVersion]
      exact ⟨hgrant, older.le, hallowance⟩

theorem Call.Move.risesTo (h : c.Move env t t') (hc : c.StampsAbove t) : RisesTo t t' := by
  intro parent beneficiary grant hrow
  rcases h.grant parent beneficiary with hsame | ⟨grant', hrow', hrestamps⟩
  · exact ⟨grant, hsame.trans hrow, .inl rfl⟩
  · rw [hrow] at hrestamps
    exact ⟨grant', hrow', hrestamps.rises hc hrow⟩

theorem Call.Move.historyBehind (h : c.Move env t t') (hc : c.StampsAbove t)
    (hbehind : HistoryBehind t) : HistoryBehind t' := by
  intro parent beneficiary version hretained
  rcases h.history hretained with hretained | ⟨stored, grant, hstored, hgrant, rfl, hplan⟩
  · obtain ⟨stored, hstored, hlt⟩ := hbehind parent beneficiary version hretained
    obtain ⟨grant, hgrant, hrises⟩ := h.risesTo hc parent beneficiary stored hstored
    refine ⟨grant, hgrant, ?_⟩
    rcases hrises with rfl | ⟨hrises, -⟩
    · exact hlt
    · exact hlt.trans hrises
  · obtain ⟨grant', hgrant', hrises⟩ := h.risesTo hc parent beneficiary stored hstored
    cases hgrant.symm.trans hgrant'
    rcases hrises with rfl | ⟨hrises, -⟩
    · exact absurd hplan (lt_irrefl _)
    · exact ⟨grant, hgrant, hrises⟩

/-- A commit of a call that stamps a version below a stored one lowers it. -/
theorem Call.Move.not_rises (h : c.Move env t t') (hc : ¬ c.StampsAbove t) : ¬ RisesTo t t' := by
  intro hrises
  obtain ⟨ops, htransaction, hadmits, rfl⟩ := h
  cases htransaction with
  | transition c ops submitted =>
      cases submitted with
      | scheduled | graceStarted | graceCleared => exact hc trivial
      | applied r previous beneficiaries grants version stored identity status due checked next
          accepted =>
          refine hc fun transition htransition beneficiary hmem grant hgrant => ?_
          cases stored.symm.trans htransition
          obtain ⟨read, hread, hdue, -⟩ :=
            accepted.exists_due ((transitionBeneficiaries_perm checked).mem_iff.mpr hmem)
          obtain ⟨found, hreplaces⟩ := r.replaces hadmits hread hdue
          cases hgrant.symm.trans hreplaces.found
          obtain ⟨-, -, hplan, -⟩ := of_decide_eq_true hreplaces.condition
          obtain ⟨hv, hp, ha⟩ := r.updatedGrant_versions env previous read
          obtain ⟨grant', hgrant', hrise⟩ := hrises _ _ _ hgrant
          cases hreplaces.updated.symm.trans hgrant'
          rcases hrise with rfl | ⟨hgrantVersion, -, hallowance⟩
          · have := hdue.older
            omega
          · omega
  | activated r command billingProjection allowanceItem grantItems grantOperations published =>
      refine hc fun beneficiary hmem stored hstored => ?_
      obtain ⟨grant, hversions, hrow, holder⟩ := published.row hadmits hmem
      obtain ⟨grant', hgrant', hrise⟩ := hrises _ _ _ hstored
      cases hrow.symm.trans hgrant'
      have hactivation := holder stored hstored
      rw [← hversions.grantVersion, ← hversions.planVersion, ← hversions.allowanceVersion]
      rcases hrise with rfl | hrise
      · exact absurd hversions.activationVersion hactivation.ne
      · exact hrise
  | raised r proofs raises => exact hc trivial

theorem Call.Move.newer (h : c.Move env t t') : TransitionsNewer t t' := by
  obtain ⟨ops, htransaction, hadmits, rfl⟩ := h
  cases htransaction with
  | transition c ops submitted =>
      exact TransitionCall.Move.newer ⟨ops, submitted, hadmits, rfl⟩
  | activated r command billingProjection allowanceItem grantItems grantOperations published =>
      exact .of_eq fun k => activation_frame (fun key => key = k.key) t (by simp) (by simp)
        (by simp) (by simp) (by simp) _ rfl
  | raised r proofs raises =>
      refine .of_eq fun k => ?_
      rcases Table.AgreesOn.row_apply_or_write t (r.operations env proofs true) k.key with
        hsame | ⟨w, hw, hkey, hwrites⟩
      · exact hsame
      rcases UpgradeRequest.mem_operations hw with hid | ⟨x, hx, rfl⟩
      · exact absurd hid hwrites
      · cases hkey

end

/-! ## Every run -/

def contract (env : Env) (faults : Faults) : Contract (service env faults) where
  toInterference := entitlements
  Move := Call.Move env
  move_inv := fun _ _ => trivial
  move_rely := fun _ h => h.newer
  drift_inv := fun _ _ => trivial
  drift_rely := fun _ h => .of_eq fun _ => h _ trivial

/-- The grants have only risen, and no retained version bars the next transition. -/
structure VersionsRise (history : List (Commit Key Row Call)) (t : Table Key Row) : Prop where
  rises : ∀ e ∈ history, RisesTo e.before t ∧ RisesTo e.after t
  unretained : ∀ parent beneficiary grant,
    t.row (.account (.grant parent beneficiary)) = some grant →
      t.row (.grantHistory parent beneficiary grant.grantVersion) = none

theorem HistoryBehind.unretained {t : Table Key Row} (h : HistoryBehind t)
    {parent beneficiary : String} {grant : Relationships.GrantRow}
    (hgrant : t.row (.account (.grant parent beneficiary)) = some grant) :
    t.row (.grantHistory parent beneficiary grant.grantVersion) = none := by
  by_contra hretained
  obtain ⟨stored, hstored, hlt⟩ := h _ _ _ (Option.isSome_iff_ne_none.mpr hretained)
  cases hgrant.symm.trans hstored
  exact absurd hlt (lt_irrefl _)

theorem RisesTo.of_agrees {t u : Table Key Row} (h : u.AgreesOn IsEntitlement t) : RisesTo t u :=
  fun parent beneficiary grant hgrant =>
    ⟨grant, (h (.account (.grant parent beneficiary)) trivial).trans hgrant, .inl rfl⟩

theorem HistoryBehind.agree {t u : Table Key Row} (hbehind : HistoryBehind t)
    (h : u.AgreesOn IsEntitlement t) : HistoryBehind u := by
  intro parent beneficiary version hretained
  rw [h (.grantHistory parent beneficiary version) trivial] at hretained
  rw [h (.account (.grant parent beneficiary)) trivial]
  exact hbehind parent beneficiary version hretained

/-- While the calls stamp versions above the stored ones, grant versions never go
back; every commit of a call that does not lowers one. -/
theorem grant_versions_rise {faults : Faults} {t : Table Key Row} {s : State Key Row Call Result}
    (hstart : HistoryBehind t) (h : Reachable (service env faults) t s) :
    ((∀ e ∈ s.history, e.call.StampsAbove e.before) → VersionsRise s.history s.table) ∧
    ∀ e ∈ s.history, ¬ e.call.StampsAbove e.before → ¬ RisesTo e.before e.after := by
  have hsafe : ∀ (c : Call) (u : Table Key Row), entitlements.Inv u →
      ((service env faults).body c).Safe faults entitlements (c.Move env) (Quiet _) [] u :=
    fun c _ _ => c.body_safe
  refine ⟨fun habove => ?_, fun e he hbelow => ?_⟩
  · have hboth : (∀ e ∈ s.history, RisesTo e.before s.table ∧ RisesTo e.after s.table) ∧
        HistoryBehind s.table := by
      refine (Reachable.traced (Γ := contract env faults) (Q := fun _ => Quiet _) h trivial hsafe
        (P := fun history u => (∀ e ∈ history, RisesTo e.before u ∧ RisesTo e.after u) ∧
          HistoryBehind u) (R := Call.StampsAbove) ⟨by simp, hstart⟩
        (fun e H _ hmove hcond hP => ?_) (fun H u u' _ hP hd => ?_) habove).1
      · have hstep := Call.Move.risesTo hmove hcond
        refine ⟨List.forall_mem_cons.mpr ⟨⟨hstep, .refl _⟩, fun d hd => ?_⟩,
          Call.Move.historyBehind hmove hcond hP.2⟩
        exact ⟨(hP.1 d hd).1.trans hstep, (hP.1 d hd).2.trans hstep⟩
      · refine ⟨fun d hd' => ?_, hP.2.agree hd⟩
        exact ⟨(hP.1 d hd').1.trans (.of_agrees hd), (hP.1 d hd').2.trans (.of_agrees hd)⟩
    exact ⟨hboth.1, fun _ _ _ => hboth.2.unretained⟩
  · have hs := Reachable.sound (Γ := contract env faults) h trivial (Q := fun _ => Quiet _) hsafe
    exact Call.Move.not_rises (hs.history e he).2.1 hbelow

/-! ## A transition of an activated grant -/

namespace Sample

/-- Digests that tell the kinds of transitions apart. -/
def sampleEnv : Env where
  transitionIdentity := fun
    | .periodEnd _ _ _ _ _ => .ofDigit 'a' isLowerHex_a
    | .renewalGrace _ _ _ _ => .ofDigit 'b' isLowerHex_b
  isoformat := fun time => toString time.reading

def customer : Sha256 := .ofDigit '1' isLowerHex_1

def subscription : Sha256 := .ofDigit '2' isLowerHex_2

def now : String := "2026-03-01T00:00:00+00:00"

/-- A checkout that is bound to its subscription, and waits for its payment. -/
def command : CommandRow where
  entityType := "checkout_command"
  schemaVersion := COMMAND_SCHEMA_VERSION
  commandId := "command"
  parentId := "parent"
  accountFenceGeneration := 1
  intentFingerprint := .ofDigit '3' isLowerHex_3
  idempotencyKeyDigest := .ofDigit '4' isLowerHex_4
  checkoutRef := "reference"
  planId := .teacherSupported
  beneficiaryIds := ["student"]
  priceId := "price"
  priceCatalogVersion := 1
  planVersion := 1
  environment := "sandbox"
  commandState := .reconciling
  commandVersion := 4
  providerKeyVersion := PROVIDER_KEY_VERSION
  providerKeyDigest := .ofDigit '5' isLowerHex_5
  providerEffectStatus := .sessionAttached
  expirationEffectStatus := none
  leaseGeneration := 1
  leaseOwner := none
  leaseExpiresAt := none
  providerSessionId := some "session"
  providerSessionUrl := none
  providerSessionIdDigest := some (.ofDigit '6' isLowerHex_6)
  providerCustomerIdDigest := some customer
  providerSubscriptionIdDigest := some subscription
  expectedInitialInvoiceIdDigest := some (.ofDigit '7' isLowerHex_7)
  supersededByCommandId := none
  supersededAt := none
  activationVersion := none
  paidInvoiceFactId := none
  activeSubscriptionFactId := none
  allowanceVersion := none
  createdAt := now
  updatedAt := now

def fact (kind : BillingFactKind) (id : Text) : BillingFact where
  factId := id
  checkoutCommandId := ⟨"command", by decide⟩
  kind := kind
  providerEventIdDigest := .ofDigit '8' isLowerHex_8
  providerObjectIdDigest := .ofDigit '9' isLowerHex_9
  factVersion := ⟨1772323200, by decide⟩
  observedAt := ⟨0, some 0⟩

theorem invoice_isRequiredText : IsRequiredText 200 "fact-invoice" := by decide

theorem subscription_isRequiredText : IsRequiredText 200 "fact-subscription" := by decide

def invoicePaid : BillingFact := fact .invoicePaid ⟨"fact-invoice", invoice_isRequiredText⟩

def subscriptionActive : BillingFact := fact .subscriptionActive ⟨"fact-subscription", subscription_isRequiredText⟩

def profile (user role : String) : Relationships.ProfileRow :=
  ⟨user, role, some "active", none, some 1⟩

def link : Relationships.LinkRow :=
  ⟨Relationships.ENTITY_TYPE, "parent", "student", some "child", "active", now⟩

/-- A parent and a student who are linked, and a payment that has arrived. -/
def start : Table Key Row := Table.empty.apply [
  .putNew (.account (.profile "parent")) (profile "parent" "parent"),
  .putNew (.account (.profile "student")) (profile "student" "student"),
  .putNew (.account (.accountFence "parent")) ⟨"active", some 1⟩,
  .putNew (.account (.accountFence "student")) ⟨"active", some 1⟩,
  .putNew (.account (.parentSide "parent" "student")) link,
  .putNew (.account (.studentSide "student" "parent")) link,
  .putNew (.command "command") command,
  .putNew invoicePaid.key invoicePaid.item,
  .putNew subscriptionActive.key subscriptionActive.item]

theorem start_behind : HistoryBehind start := by
  intro parent beneficiary version hretained
  rw [start, Table.row_apply_of_notMem _ _ _ (by simp [Write.putNew, Write.put])] at hretained
  cases hretained

abbrev Run := State Key Row Call Result

def solo (c : Call) (s : Run) : Run := s.solo (service sampleEnv .strongReads) c []

theorem solo_reachable {c : Call} {s : Run}
    (h : Reachable (service sampleEnv .strongReads) start s) :
    Reachable (service sampleEnv .strongReads) start (solo c s) :=
  h.trans (State.solo_steps trivial trivial trivial [])

def activation : PaidActivationRequest where
  commandId := "command"
  parentId := "parent"
  expectedCommandVersion := 4
  providerCustomerIdDigest := customer
  priceId := "price"
  environment := "sandbox"
  planId := .teacherSupported
  planVersion := 1
  allowanceVersion := 1
  activationVersion := 1772323200
  paidInvoiceFactId := "fact-invoice"
  activeSubscriptionFactId := "fact-subscription"
  activatedAt := ⟨now, some ⟨0, some 0⟩⟩
  providerLivemode := false
  providerSubscriptionIdDigest := some subscription

def projected (entityType : String) : ProjectedItem where
  owner := "parent"
  row := {
    entityType := entityType
    parentId := "parent"
    planId := .teacherSupported
    planVersion := 1
    allowanceVersion := 1
    activationVersion := 1772323200 }

def activate : Call :=
  .activate activation command (projected "billing_projection") (projected "allowance_plan")

def periodEnd : Datetime := ⟨1774915200, some 0⟩

/-- The plan is lowered at the end of the period. -/
def schedule : Call := .transition (.schedule {
  parentId := "parent"
  beneficiaryIds := ["student"]
  subscriptionIdDigest := subscription
  currentPlan := .teacherSupported
  targetPlan := .student
  planVersion := 2
  periodEnd := periodEnd })

def applyDue : Call := .transition (.applyDue {
  parentId := "parent"
  subscriptionIdDigest := subscription
  transitionKind := .periodEnd
  transitionIdentity := .ofDigit 'a' isLowerHex_a
  now := periodEnd })

def scheduled : Run := solo schedule (solo activate (.initial start))

def lowered : Run := solo applyDue scheduled

theorem scheduled_reachable : Reachable (service sampleEnv .strongReads) start scheduled :=
  solo_reachable (solo_reachable .refl)

def grantVersion (t : Table Key Row) : Option ℤ :=
  (t.row (.account (.grant "parent" "student"))).map Relationships.GrantRow.grantVersion

end Sample

/-- A transition takes the grant version from the time of the activation's event
down to its own plan version. -/
theorem transition_lowers_grant_version :
    Reachable (service Sample.sampleEnv .strongReads) Sample.start Sample.lowered ∧
      ¬ VersionsRise Sample.lowered.history Sample.lowered.table := by
  refine ⟨Sample.solo_reachable Sample.scheduled_reachable, fun h => ?_⟩
  have hrun : (Sample.lowered.history.any (fun e =>
      Sample.grantVersion e.before = some 1772323200),
      Sample.grantVersion Sample.lowered.table) = (true, some 2) := by decide +kernel
  obtain ⟨hbefore, hafter⟩ := Prod.mk.inj hrun
  obtain ⟨e, he, hversion⟩ := List.any_eq_true.mp hbefore
  obtain ⟨grant, hgrant, hversion⟩ := Option.map_eq_some_iff.mp (of_decide_eq_true hversion)
  obtain ⟨grant', hgrant', hrises⟩ := (h.rises e he).1 _ _ grant hgrant
  rw [Sample.grantVersion, hgrant', Option.map_some, Option.some_inj] at hafter
  rcases hrises with rfl | ⟨hlt, -⟩ <;> omega

/-- Nothing is stored yet that a call could stamp a lower version on. -/
def Call.stampsFirst (t : Table Key Row) : Call → Bool
  | .activate r command _ _ => command.beneficiaryIds.all fun beneficiary =>
    (t.row (.account (.grant r.parentId beneficiary))).isNone
  | .transition (.applyDue r) => (t.row r.key.key).isNone
  | _ => true

theorem Call.StampsAbove.of_first {c : Call} {t : Table Key Row} (h : c.stampsFirst t = true) :
    c.StampsAbove t := by
  cases c with
  | activate r command billingProjection allowanceItem =>
      intro beneficiary hmem grant hgrant
      have hnone := List.all_eq_true.mp h beneficiary hmem
      rw [hgrant] at hnone
      cases hnone
  | transition c =>
      cases c with
      | applyDue r =>
          intro transition htransition
          rw [stampsFirst, htransition] at h
          cases h
      | schedule | startGrace | clearGrace => trivial
  | upgrade r => trivial

/-- The grant is activated, and its transition only scheduled. -/
theorem grant_versions_rise_sample :
    VersionsRise Sample.scheduled.history Sample.scheduled.table := by
  refine (grant_versions_rise Sample.start_behind Sample.scheduled_reachable).1 fun e he => ?_
  have hfirst : (Sample.scheduled.history.all fun e => e.call.stampsFirst e.before) = true := by
    decide +kernel
  exact .of_first (List.all_eq_true.mp hfirst e he)

end Stoa.PaidEntitlement
