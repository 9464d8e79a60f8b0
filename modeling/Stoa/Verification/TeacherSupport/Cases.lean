import Stoa.Model.TeacherSupport
import Stoa.Store.Versioned
import Mathlib.Algebra.Group.Int.Defs

/-! # Cases and their counters

A scope's counter for a week is the number of its open receipts. -/

namespace Stoa.TeacherSupport

open RowStore Relationships

variable {env : Env}

/-- The rows that count: receipts and counters. -/
def Key.IsCase : Key → Prop
  | .account _ => False
  | .assigned _ => False
  | .receipt _ => True
  | .counter _ _ => True
  | .other _ => False

theorem Key.IsCase.isOwn {k : Key} (h : k.IsCase) : k.IsOwn := by
  cases k <;> first | exact h.elim | trivial

/-! ## Counting -/

/-- 1 for a receipt of the scope and week that is not refunded. -/
def openCase (scope : Sha256) (week : String) : (k : Key) → Row k → ℤ
  | .receipt _, row =>
      if row.supportScopeId = scope ∧ row.weekIdentity = week ∧ row.refundedAt.isNone then 1 else 0
  | .account _, _ => 0
  | .assigned _, _ => 0
  | .counter _ _, _ => 0
  | .other _, _ => 0

/-- The count that is stored; a counter that is not there counts 0. -/
def admittedCases (t : Table Key Row) (scope : Sha256) (week : String) : ℤ :=
  (t.row (.counter scope week)).elim 0 fun row => row.counts .admittedCases

theorem openCase_eq_zero {scope : Sha256} {week : String} (k : Key) (item : Row k)
    (h : ¬ k.IsCase) : openCase scope week k item = 0 := by
  cases k with
  | receipt x => exact (h trivial).elim
  | _ => rfl

theorem admittedCases_congr {t t' : Table Key Row} (h : t'.AgreesOn Key.IsCase t)
    (scope : Sha256) (week : String) :
    admittedCases t' scope week = admittedCases t scope week := by
  rw [admittedCases, admittedCases, h (.counter scope week) trivial]

theorem admittedCases_set_receipt (t : Table Key Row) (x scope : Sha256) (week : String)
    (row : ReceiptRow) :
    admittedCases (t.set (.receipt x) (some row)) scope week = admittedCases t scope week := by
  rw [admittedCases, admittedCases, Table.row_set_of_ne _ _ (by simp)]

theorem admittedCases_set_counter (t : Table Key Row) (scope scope' : Sha256)
    (week week' : String) (row : CounterRow CaseField CaseFields) :
    admittedCases (t.set (.counter scope week) (some row)) scope' week' =
      if scope' = scope ∧ week' = week then row.counts .admittedCases
      else admittedCases t scope' week' := by
  unfold admittedCases
  split
  · rename_i h
    obtain ⟨rfl, rfl⟩ := h
    rw [Table.row_set_self, Option.elim_some]
  · rename_i h
    have hk : Key.counter scope' week' ≠ .counter scope week := by simpa using h
    rw [Table.row_set_of_ne t (some row) hk]

theorem total_set_counter (t : Table Key Row) (scope scope' : Sha256) (week week' : String)
    (row : CounterRow CaseField CaseFields) :
    (t.set (.counter scope week) (some row)).total (openCase scope' week') =
      t.total (openCase scope' week') := by
  have h := Table.total_set t (openCase scope' week') (.counter scope week) (some row)
  have hold : (t.row (.counter scope week)).elim 0
      (openCase scope' week' (.counter scope week)) = 0 := by
    cases t.row (.counter scope week) <;> rfl
  rw [hold] at h
  simpa [openCase] using h

/-! ## The limit in force -/

/-- What the store says a student may spend, in which scope. -/
inductive InForce (env : Env) (t : Table Key Row) (beneficiary : Text) :
    Sha256 → ℤ → Prop where
  | paid (parent : String) (grant : GrantRow) (scope : ResolvedScope)
      (stored : t.row (.account (.grant parent beneficiary.val)) = some grant)
      (resolved : paidScope env beneficiary parent grant = some scope) :
      InForce env t beneficiary scope.supportScopeId scope.limit
  | assigned :
      InForce env t beneficiary
        (env.domainDigest "stoa.teacher-support.scope.v1" ["assigned", beneficiary.val])
        (assignedWeeklyCases (t.row (.assigned beneficiary)))

/-- A scope that a lookup can have resolved. -/
inductive ResolvedScope.Of (env : Env) (beneficiary : Text) (scope : ResolvedScope) : Prop where
  | paid (parent : String) (grant : GrantRow)
      (resolved : paidScope env beneficiary parent grant = some scope)
  | assigned (profileVersion : ℤ) (raised : Option AssignedRow)
      (resolved : assignedScope env beneficiary profileVersion raised = .ok (some scope))

theorem findPaidScope_finds (env : Env) (beneficiary : Text) :
    Fetch.Finds (fun found => ∀ student scope, found = some (student, some scope) →
      scope.Of env beneficiary) (findPaidScope env beneficiary) := by
  refine Fetch.finds_bind fun student => ?_
  cases student with
  | none => exact Fetch.finds_pure fun student scope h => by cases h
  | some profile =>
      refine Fetch.finds_bind fun granted => Fetch.finds_pure fun student scope h => ?_
      simp only [Option.some.injEq, Prod.mk.injEq, Option.bind_eq_some_iff] at h
      obtain ⟨-, ⟨parent, grant⟩, -, hscope⟩ := h
      exact .paid parent grant hscope

/-- A grant gives the scope of its plan's budget. -/
theorem paidScope_eq_some {beneficiary : Text} {parent : String} {grant : GrantRow}
    {scope : ResolvedScope} :
    paidScope env beneficiary parent grant = some scope ↔
      (0 < grant.planVersion ∧ 0 < grant.allowanceVersion ∧ 0 < grant.grantVersion) ∧
      (grant.parentId = parent ∧ grant.beneficiaryId = beneficiary.val ∧
        grant.grantStatus = "active") ∧
      ∃ budget, planAllowanceBudget grant.planId grant.allowanceVersion = .ok budget ∧
        budget.teacherSupportScope ≠ .none ∧
        grantScope env beneficiary parent grant budget = scope := by
  unfold paidScope
  split
  · rename_i h
    refine ⟨fun hs => (nomatch hs), fun ⟨hv, _⟩ => ?_⟩
    omega
  split
  · rename_i h
    refine ⟨fun hs => (nomatch hs), fun ⟨_, hp, _⟩ => ?_⟩
    simp [hp] at h
  rename_i hv hp
  simp only [not_or, not_le, ne_eq, not_not] at hv hp
  simp only [hv, hp, true_and, and_self]
  split
  · rename_i hb
    simp [hb]
  · rename_i budget hb
    split
    · rename_i hnone
      simp [hb, hnone]
    · rename_i hsome
      simp [hb, hsome]

/-- A scope depends on the attributes of the grant that an admission conditions on. -/
theorem paidScope_congr {beneficiary : Text} {parent : String} {grant stored : GrantRow}
    {scope : ResolvedScope} (h : paidScope env beneficiary parent grant = some scope)
    (hcondition : grantCondition scope parent (some stored) = true) :
    ∃ scope', paidScope env beneficiary parent stored = some scope' ∧
      scope'.supportScopeId = scope.supportScopeId ∧ scope'.limit = scope.limit := by
  obtain ⟨hversions, hsame, budget, hbudget, hscope, rfl⟩ := paidScope_eq_some.mp h
  obtain ⟨hstatus, hparent, hbeneficiary, hplan, hversion, hallowance, hgrant, hdigest⟩ :=
    of_decide_eq_true hcondition
  dsimp only [grantScope] at hbeneficiary hplan hversion hallowance hgrant hdigest
  refine ⟨grantScope env beneficiary parent stored budget, ?_, ?_, rfl⟩
  · refine paidScope_eq_some.mpr ⟨?_, ⟨hparent, hbeneficiary, hstatus⟩, budget, ?_, hscope, rfl⟩
    · rwa [hversion, hallowance, hgrant]
    · rwa [hplan, hallowance]
  · simp only [grantScope, scopeValues, hdigest, hgrant, hversion]

theorem raisedVersion_eq_ok {raised : Option AssignedRow} {version : Option ℤ}
    (h : raisedVersion raised = .ok version) : version = raised.map (·.stateVersion) := by
  unfold raisedVersion at h
  split at h
  · cases h
    rfl
  · split at h
    · cases h
    split at h <;> cases h
    rfl

theorem assignedScope_eq_some {beneficiary : Text} {profileVersion : ℤ}
    {raised : Option AssignedRow} {scope : ResolvedScope}
    (h : assignedScope env beneficiary profileVersion raised = .ok (some scope)) :
    scope.beneficiary = beneficiary ∧
      scope.source = .assigned profileVersion (raised.map (·.stateVersion)) ∧
      scope.supportScopeId =
        env.domainDigest "stoa.teacher-support.scope.v1" ["assigned", beneficiary.val] ∧
      scope.limit = assignedWeeklyCases raised ∧ 0 < scope.limit := by
  unfold assignedScope at h
  obtain ⟨version, hversion, h⟩ := bind_eq_ok.mp h
  have hmap := raisedVersion_eq_ok hversion
  dsimp only at h
  split at h
  · cases h
  · rename_i hpos
    cases h
    exact ⟨rfl, by rw [hmap], rfl, rfl, not_le.mp hpos⟩

/-- The figure that was read is the figure in force where its condition holds. -/
theorem assignedWeeklyCases_of_condition {scope : ResolvedScope}
    {raised stored : Option AssignedRow} (hlimit : scope.limit = assignedWeeklyCases raised)
    (hpos : 0 < scope.limit)
    (h : assignedCondition scope (raised.map (·.stateVersion)) stored = true) :
    assignedWeeklyCases stored = scope.limit := by
  cases raised with
  | none =>
      have hnone : stored = none := by simpa [assignedCondition] using h
      rw [hnone, hlimit]
  | some row =>
      have hmax : scope.limit ≤ ASSIGNED_WEEKLY_CASES_MAXIMUM := by
        rw [hlimit, assignedWeeklyCases]
        split
        · decide
        · omega
      cases stored with
      | none => simp [assignedCondition] at h
      | some row' =>
          obtain ⟨-, hcases⟩ : row'.stateVersion = row.stateVersion ∧
              row'.weeklyCases = scope.limit := by
            simpa [assignedCondition] using h
          rw [assignedWeeklyCases, if_neg (by omega), hcases]

end Stoa.TeacherSupport
