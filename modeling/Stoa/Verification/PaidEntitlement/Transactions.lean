import Stoa.Verification.PaidEntitlement.Operations
import Stoa.Store.Versioned

/-! # The transactions of a transition

Whoever replaces a transition raises its version, under a condition on the one
that it has read. So what a call commits is told from the rows that are stored
when it commits. -/

namespace Stoa.PaidEntitlement

open RowStore Billing

/-- The calls on the transitions of a parent. -/
inductive TransitionCall where
  | schedule (r : ScheduleRequest)
  | startGrace (r : GraceRequest)
  | clearGrace (r : ClearRequest)
  | applyDue (r : ApplyRequest)

def TransitionCall.body (env : Env) : TransitionCall → RepoCall PaidTransitionResult
  | .schedule r => schedulePeriodEndTransition env r
  | .startGrace r => startRenewalGrace env r
  | .clearGrace r => clearRenewalGrace r
  | .applyDue r => applyDuePaidTransition env r

/-- What a call owes besides its commits. -/
def TransitionCall.Owes : TransitionCall → Post Key Row (Except Failure PaidTransitionResult)
  | .schedule _ => Quiet _
  | .startGrace _ => Quiet _
  | .clearGrace r => Answers r.key r.transitionIdentity
  | .applyDue r => Answers r.key r.transitionIdentity

/-- The rows that the calls own. -/
def IsEntitlement : Key → Prop
  | .account (.grant _ _) => True
  | .transition _ _ _ => True
  | .grantHistory _ _ _ => True
  | _ => False

/-! ## Versions of transitions -/

/-- No transition is removed, and what replaces one has a greater version. -/
def TransitionsNewer (t u : Table Key Row) : Prop :=
  ∀ k : TransitionKey, Newer TransitionRow.transitionVersion (t.row k.key) (u.row k.key)

namespace TransitionsNewer

variable {t u v : Table Key Row}

theorem refl (t : Table Key Row) : TransitionsNewer t t := fun _ => .refl _ _

theorem trans (htu : TransitionsNewer t u) (huv : TransitionsNewer u v) : TransitionsNewer t v :=
  fun k => (htu k).trans (huv k)

theorem of_eq (h : ∀ k : TransitionKey, u.row k.key = t.row k.key) : TransitionsNewer t u :=
  fun k => h k ▸ .refl _ _

end TransitionsNewer

theorem TransitionKey.key_inj {k k' : TransitionKey} : k.key = k'.key ↔ k = k' := by
  cases k
  cases k'
  simp

theorem lt_of_nextTransitionVersion {previous : Option TransitionRow} {version : ℤ}
    (h : nextTransitionVersion previous = .ok version) {row : TransitionRow}
    (hrow : previous = some row) : row.transitionVersion < version := by
  subst hrow
  unfold nextTransitionVersion positiveInteger at h
  dsimp only at h
  split at h
  · cases h
    exact Int.lt_succ _
  · cases h

section

variable {env : Env} {F : Faults} {I : Interference Key Row} {t u : Table Key Row}
  {own : List (Table Key Row × Table Key Row)}

/-- The transition that a put finds is the one that its call has read. -/
theorem transitionPut_stored (hrely : ∀ {t u}, I.Rely t u → TransitionsNewer t u)
    {k : TransitionKey} {item : TransitionRow} {previous : Option TransitionRow}
    (hseen : ∀ row, previous = some row → I.Seen k.key (some row) u)
    {ops : List (Write Key Row)} (hmem : transitionPut k item previous ∈ ops)
    (hadmits : u.Admits ops) : u.row k.key = previous := by
  have hmet := hadmits.2 _ hmem
  cases previous with
  | none => exact Option.isNone_iff_eq_none.mp hmet
  | some row =>
      obtain ⟨v, -, hv, hvu⟩ := hseen row rfl
      have hnewer := hrely hvu k
      rw [hv] at hnewer
      obtain ⟨stored, hstored⟩ := hnewer.exists_some
      have hmet : (u.row k.key).any (unchanged row) = true := hmet
      rw [hstored, Option.any_some] at hmet
      rw [hstored] at hnewer ⊢
      exact congrArg some (hnewer.eq_of_version (of_decide_eq_true hmet).2.1)

/-! ## What is submitted -/

/-- The transaction of a call, on a table that admits it. -/
inductive TransitionCall.Transaction (env : Env) (I : Interference Key Row)
    (t : Table Key Row) : TransitionCall → List (Write Key Row) → Prop where
  | scheduled (r : ScheduleRequest) (beneficiaries : List String) (version : ℤ)
      (checked : r.checked = .ok beneficiaries)
      (replaces : (t.row r.key.key).bind (r.refused env) = none)
      (next : nextTransitionVersion (t.row r.key.key) = .ok version) :
      Transaction env I t (.schedule r)
        [transitionPut r.key (r.item env beneficiaries version) (t.row r.key.key)]
  | graceStarted (r : GraceRequest) (beneficiaries : List String) (version : ℤ)
      (checked : r.checked = .ok beneficiaries)
      (replaces : (t.row r.key.key).bind r.refused = none)
      (next : nextTransitionVersion (t.row r.key.key) = .ok version) :
      Transaction env I t (.startGrace r)
        [transitionPut r.key (r.item env beneficiaries version) (t.row r.key.key)]
  | graceCleared (r : ClearRequest) (previous : TransitionRow) (version : ℤ)
      (stored : t.row r.key.key = some previous)
      (identity : previous.transitionIdentity = r.transitionIdentity)
      (status : previous.status = .graceStarted)
      (next : nextTransitionVersion (some previous) = .ok version) :
      Transaction env I t (.clearGrace r)
        [transitionPut r.key (r.item previous version) (some previous)]
  | applied (r : ApplyRequest) (previous : TransitionRow) (beneficiaries : List String)
      (grants : List Relationships.GrantRow) (version : ℤ)
      (stored : t.row r.key.key = some previous)
      (identity : previous.transitionIdentity = r.transitionIdentity)
      (status : previous.status = r.expectedStatus)
      (due : previous.effectiveAt.instant ≤ r.now.instant)
      (checked : transitionBeneficiaries previous.beneficiaryIds = .ok beneficiaries)
      (next : nextTransitionVersion (some previous) = .ok version)
      (accepted : Accepted I r.parentId (r.dueGrant previous) beneficiaries grants t) :
      Transaction env I t (.applyDue r) (r.operations env previous grants version)

/-- What a commit of a call does. -/
def TransitionCall.Move (env : Env) (I : Interference Key Row) (c : TransitionCall)
    (t t' : Table Key Row) : Prop :=
  ∃ ops, c.Transaction env I t ops ∧ t.Admits ops ∧ t' = t.apply ops

theorem transitionPut_mem (k : TransitionKey) (item : TransitionRow)
    (previous : Option TransitionRow) :
    transitionPut k item previous ∈ [transitionPut k item previous] := List.mem_singleton_self _

theorem ScheduleRequest.allowed (hrely : ∀ {t u}, I.Rely t u → TransitionsNewer t u)
    (r : ScheduleRequest) : r.Allowed env (TransitionCall.Move env I (.schedule r)) I := by
  intro beneficiaries previous version hchecked hreplaces hnext u _ hseen hadmits
  have hstored := transitionPut_stored hrely hseen (transitionPut_mem _ _ _) hadmits
  subst hstored
  exact ⟨_, .scheduled r beneficiaries version hchecked hreplaces hnext, hadmits,
    (transitionPut_apply _ _ _ _).symm⟩

theorem GraceRequest.allowed (hrely : ∀ {t u}, I.Rely t u → TransitionsNewer t u)
    (r : GraceRequest) : r.Allowed env (TransitionCall.Move env I (.startGrace r)) I := by
  intro beneficiaries previous version hchecked hreplaces hnext u _ hseen hadmits
  have hstored := transitionPut_stored hrely hseen (transitionPut_mem _ _ _) hadmits
  subst hstored
  exact ⟨_, .graceStarted r beneficiaries version hchecked hreplaces hnext, hadmits,
    (transitionPut_apply _ _ _ _).symm⟩

theorem ClearRequest.allowed (hrely : ∀ {t u}, I.Rely t u → TransitionsNewer t u)
    (r : ClearRequest) : r.Allowed (TransitionCall.Move env I (.clearGrace r)) I := by
  intro previous version hidentity hstatus hnext u _ hseen hadmits
  have hstored := transitionPut_stored hrely hseen (transitionPut_mem _ _ _) hadmits
  exact ⟨_, .graceCleared r previous version hstored hidentity hstatus hnext, hadmits,
    (transitionPut_apply _ _ _ _).symm⟩

theorem ApplyRequest.put_mem (r : ApplyRequest) (previous : TransitionRow)
    (grants : List Relationships.GrantRow) (version : ℤ) :
    transitionPut r.key (r.appliedItem previous version) (some previous) ∈
      r.operations env previous grants version := by
  simp [operations]

theorem ApplyRequest.allowed (hrely : ∀ {t u}, I.Rely t u → TransitionsNewer t u)
    (r : ApplyRequest) : r.Allowed env (TransitionCall.Move env I (.applyDue r)) I := by
  intro previous beneficiaries grants version hidentity hstatus hdue hchecked hnext u _ hseen
    haccepted hadmits
  have hread : ∀ row, some previous = some row → I.Seen r.key.key (some row) u := by
    rintro row ⟨⟩
    exact hseen
  have hstored := transitionPut_stored hrely hread (r.put_mem previous grants version) hadmits
  exact ⟨_, .applied r previous beneficiaries grants version hstored hidentity hstatus hdue hchecked
    hnext haccepted, hadmits, rfl⟩

/-- Every call on the transitions commits its transaction and answers truly. -/
theorem TransitionCall.body_safe (hrely : ∀ {t u}, I.Rely t u → TransitionsNewer t u)
    (c : TransitionCall) : (c.body env).Safe F I (c.Move env I) c.Owes own t := by
  cases c with
  | schedule r => exact schedulePeriodEndTransition_safe (r.allowed hrely)
  | startGrace r => exact startRenewalGrace_safe (r.allowed hrely)
  | clearGrace r => exact clearRenewalGrace_safe (r.allowed hrely)
  | applyDue r => exact applyDuePaidTransition_safe (r.allowed hrely)

/-! ## What an application writes -/

/-- A check that returns what it is given does so for a whole list. -/
theorem mapM_eq_ok {α ε : Type} {f : α → Except ε α} (hf : ∀ {a b}, f a = .ok b → b = a) :
    ∀ {l found : List α}, l.mapM f = .ok found → found = l := by
  intro l
  induction l with
  | nil =>
      intro found h
      cases h
      rfl
  | cons a l ih =>
      intro found h
      rw [List.mapM_cons] at h
      obtain ⟨b, ha, h⟩ := bind_eq_ok.mp h
      obtain ⟨rest, hl, h⟩ := bind_eq_ok.mp h
      cases h
      rw [hf ha, ih hl]

theorem eq_of_requireText {value field text : String} {minimum maximum : ℕ}
    (h : requireText value field minimum maximum = .ok text) : text = value := by
  unfold requireText at h
  split at h <;> cases h
  rfl

theorem transitionBeneficiaries_perm {values beneficiaries : List String}
    (h : transitionBeneficiaries values = .ok beneficiaries) : beneficiaries.Perm values := by
  obtain ⟨checked, hchecked, h⟩ := bind_eq_ok.mp h
  rw [← mapM_eq_ok eq_of_requireText hchecked]
  split at h <;> cases h
  exact List.perm_insertionSort _ _

theorem Accepted.exists_grant {parent beneficiary : String}
    {accept : String → Option Relationships.GrantRow → Option Relationships.GrantRow}
    {beneficiaries : List String} {grants : List Relationships.GrantRow}
    (h : Accepted I parent accept beneficiaries grants t) (hmem : beneficiary ∈ beneficiaries) :
    ∃ grant ∈ grants, ∃ item, accept beneficiary item = some grant ∧
      I.Seen (.account (.grant parent beneficiary)) item t := by
  induction h with
  | nil => cases hmem
  | cons hfound _ ih =>
      rcases List.mem_cons.mp hmem with rfl | hmem
      · exact ⟨_, List.mem_cons_self .., hfound⟩
      · obtain ⟨grant, hgrant, hitem⟩ := ih hmem
        exact ⟨grant, List.mem_cons_of_mem _ hgrant, hitem⟩

theorem Accepted.exists_beneficiary {parent : String} {grant : Relationships.GrantRow}
    {accept : String → Option Relationships.GrantRow → Option Relationships.GrantRow}
    {beneficiaries : List String} {grants : List Relationships.GrantRow}
    (h : Accepted I parent accept beneficiaries grants t) (hmem : grant ∈ grants) :
    ∃ beneficiary ∈ beneficiaries, ∃ item, accept beneficiary item = some grant ∧
      I.Seen (.account (.grant parent beneficiary)) item t := by
  induction h with
  | nil => cases hmem
  | cons hfound _ ih =>
      rcases List.mem_cons.mp hmem with rfl | hmem
      · exact ⟨_, List.mem_cons_self .., hfound⟩
      · obtain ⟨beneficiary, hbeneficiary, hitem⟩ := ih hmem
        exact ⟨beneficiary, List.mem_cons_of_mem _ hbeneficiary, hitem⟩

/-- A grant that a transition may replace. -/
structure ApplyRequest.Due (r : ApplyRequest) (previous : TransitionRow) (beneficiary : String)
    (grant : Relationships.GrantRow) : Prop where
  parent : grant.parentId = r.parentId
  beneficiary : grant.beneficiaryId = beneficiary
  active : grant.grantStatus = "active"
  subscription : grant.subscriptionIdDigest = r.subscriptionIdDigest
  plan : grant.planId = previous.currentPlan
  older : grant.planVersion < previous.planVersion

theorem ApplyRequest.dueGrant_eq_some {r : ApplyRequest} {previous : TransitionRow}
    {beneficiary : String} {item : Option Relationships.GrantRow} {grant : Relationships.GrantRow}
    (h : r.dueGrant previous beneficiary item = some grant) :
    item = some grant ∧ r.Due previous beneficiary grant := by
  obtain ⟨hactive, hdue⟩ := Option.filter_eq_some_iff.mp h
  obtain ⟨hitem, hmet⟩ := Option.filter_eq_some_iff.mp hactive
  obtain ⟨hsubscription, hplan, holder⟩ := of_decide_eq_true hdue
  obtain ⟨-, -, hparent, hbeneficiary, hstatus, -⟩ := of_decide_eq_true hmet
  exact ⟨hitem, hparent, hbeneficiary, hstatus, hsubscription, hplan, holder⟩

theorem ApplyRequest.updatedGrant_versions (r : ApplyRequest) (env : Env) (previous : TransitionRow)
    (grant : Relationships.GrantRow) :
    (r.updatedGrant env previous grant).grantVersion = previous.planVersion ∧
      (r.updatedGrant env previous grant).planVersion = previous.planVersion ∧
      (r.updatedGrant env previous grant).allowanceVersion = previous.planVersion := by
  unfold updatedGrant
  split <;> exact ⟨rfl, rfl, rfl⟩

section

variable {r : ApplyRequest} {previous : TransitionRow} {beneficiaries : List String}
  {grants : List Relationships.GrantRow} {version : ℤ}

theorem ApplyRequest.mem_operations {w : Write Key Row} :
    w ∈ r.operations env previous grants version ↔
      (∃ grant ∈ grants, w ∈ r.grantOperations env previous grant) ∨
        w = transitionPut r.key (r.appliedItem previous version) (some previous) := by
  simp [operations]

/-- What happens to the grant of one beneficiary. -/
structure ApplyRequest.Replaces (env : Env) (r : ApplyRequest) (previous : TransitionRow)
    (beneficiary : String) (grant stored : Relationships.GrantRow) (t t' : Table Key Row) :
    Prop where
  due : r.Due previous beneficiary grant
  found : t.row (.account (.grant r.parentId beneficiary)) = some stored
  condition : r.grantCondition grant stored = true
  updated : t'.row (.account (.grant r.parentId beneficiary)) =
    some (r.updatedGrant env previous grant)
  unretained : t.row (.grantHistory r.parentId beneficiary grant.grantVersion) = none
  retained : t'.row (.grantHistory r.parentId beneficiary grant.grantVersion) =
    some (grantHistoryItem grant previous)

/-- Every grant that was read is replaced, and retained in the history. -/
theorem ApplyRequest.replaces (hadmits : t.Admits (r.operations env previous grants version))
    {beneficiary : String} {grant : Relationships.GrantRow} (hgrant : grant ∈ grants)
    (hdue : r.Due previous beneficiary grant) :
    ∃ stored, r.Replaces env previous beneficiary grant stored t
      (t.apply (r.operations env previous grants version)) := by
  have hwrites : ∀ w ∈ r.grantOperations env previous grant,
      w ∈ r.operations env previous grants version :=
    fun w hw => mem_operations.mpr (.inl ⟨grant, hgrant, hw⟩)
  have hhistory := hwrites _ (List.mem_cons_self ..)
  have hput := hwrites _ (List.mem_cons_of_mem _ (List.mem_cons_self ..))
  have hmet := hadmits.2 _ hput
  have hnew := hadmits.2 _ hhistory
  have hputRow := Table.row_apply_of_mem t hadmits.1 hput
  have hhistoryRow := Table.row_apply_of_mem t hadmits.1 hhistory
  simp only [Write.put, Write.putNew] at hmet hnew hputRow hhistoryRow
  rw [hdue.parent, hdue.beneficiary] at hmet hnew hputRow hhistoryRow
  obtain ⟨stored, hstored, hcondition⟩ := (Option.any_eq_true _ _).mp hmet
  exact ⟨stored, hdue, hstored, hcondition, hputRow, Option.isNone_iff_eq_none.mp hnew,
    hhistoryRow⟩

theorem Accepted.exists_due
    (h : Accepted I r.parentId (r.dueGrant previous) beneficiaries grants t)
    {beneficiary : String} (hmem : beneficiary ∈ beneficiaries) :
    ∃ grant ∈ grants, r.Due previous beneficiary grant ∧
      I.Seen (.account (.grant r.parentId beneficiary)) (some grant) t := by
  obtain ⟨grant, hgrant, item, haccept, hseen⟩ := h.exists_grant hmem
  obtain ⟨rfl, hdue⟩ := r.dueGrant_eq_some haccept
  exact ⟨grant, hgrant, hdue, hseen⟩

theorem Accepted.due_of_mem
    (h : Accepted I r.parentId (r.dueGrant previous) beneficiaries grants t)
    {grant : Relationships.GrantRow} (hmem : grant ∈ grants) :
    ∃ beneficiary ∈ beneficiaries, r.Due previous beneficiary grant := by
  obtain ⟨beneficiary, hbeneficiary, item, haccept, -⟩ := h.exists_beneficiary hmem
  exact ⟨beneficiary, hbeneficiary, (r.dueGrant_eq_some haccept).2⟩

/-- Nothing else is written. -/
theorem ApplyRequest.row_apply_of_other
    (haccepted : Accepted I r.parentId (r.dueGrant previous) beneficiaries grants t) {k : Key}
    (htransition : k ≠ r.key.key)
    (hgrant : ∀ beneficiary ∈ beneficiaries, k ≠ .account (.grant r.parentId beneficiary))
    (hhistory : ∀ beneficiary ∈ beneficiaries, ∀ grant ∈ grants, r.Due previous beneficiary grant →
      k ≠ .grantHistory r.parentId beneficiary grant.grantVersion) :
    (t.apply (r.operations env previous grants version)).row k = t.row k := by
  refine Table.row_apply_of_notMem t _ k fun w hw => ?_
  rcases mem_operations.mp hw with ⟨grant, hmem, hw⟩ | rfl
  · obtain ⟨beneficiary, hbeneficiary, hdue⟩ := haccepted.due_of_mem hmem
    rcases List.mem_pair.mp hw with rfl | rfl
    · have hkey := hhistory beneficiary hbeneficiary grant hmem hdue
      rwa [← hdue.parent, ← hdue.beneficiary] at hkey
    · have hkey := hgrant beneficiary hbeneficiary
      rwa [← hdue.parent, ← hdue.beneficiary] at hkey
  · exact htransition

end

/-! ## What a commit keeps -/

theorem TransitionsNewer.put {k : TransitionKey} {item : TransitionRow}
    (hversion : ∀ row, t.row k.key = some row → row.transitionVersion < item.transitionVersion) :
    TransitionsNewer t (t.set k.key (some item)) := by
  intro k'
  by_cases hk : k' = k
  · subst hk
    rw [Table.row_set_self]
    cases hrow : t.row k'.key with
    | none => trivial
    | some row => exact .inr (hversion row hrow)
  · rw [Table.row_set_of_ne _ _ fun he => hk (TransitionKey.key_inj.mp he)]
    exact .refl _ _

theorem TransitionCall.Move.newer {c : TransitionCall} {t' : Table Key Row}
    (h : c.Move env I t t') : TransitionsNewer t t' := by
  obtain ⟨ops, htransaction, hadmits, rfl⟩ := h
  cases htransaction with
  | scheduled r beneficiaries version checked replaces next =>
      rw [transitionPut_apply]
      exact .put fun row hrow => lt_of_nextTransitionVersion next hrow
  | graceStarted r beneficiaries version checked replaces next =>
      rw [transitionPut_apply]
      exact .put fun row hrow => lt_of_nextTransitionVersion next hrow
  | graceCleared r previous version stored identity status next =>
      rw [transitionPut_apply]
      exact .put fun row hrow => lt_of_nextTransitionVersion next (stored.symm.trans hrow)
  | applied r previous beneficiaries grants version stored identity status due checked next accepted =>
      intro k
      by_cases hk : k = r.key
      · subst hk
        rw [ApplyRequest.row_apply hadmits, stored]
        exact .inr (lt_of_nextTransitionVersion next rfl)
      · have hrow : (t.apply (r.operations env previous grants version)).row k.key = t.row k.key :=
          r.row_apply_of_other accepted (fun he => hk (TransitionKey.key_inj.mp he))
            (fun _ _ he => by cases he) fun _ _ _ _ _ he => by cases he
        rw [hrow]
        exact .refl _ _

end

end Stoa.PaidEntitlement
