import Stoa.Verification.PaidEntitlement.GrantVersions
import Stoa.Verification.Allowance.Alone
import Stoa.Verification.Allowance.Conservation
import Stoa.Store.Joint

/-! # Whether a paid student keeps being admitted

The weekly counter refuses an allowance version that is lower than its own, and
another plan under the same version. It agrees with the grants as long as every
change of plan raises the allowance version. -/

namespace Stoa.PaidEntitlement

open RowStore Billing

variable {env : Env} {ledger : Allowance.Env}

/-! ## Changes of plan beside reservations -/

/-- The calls that change a stored grant, and those that prepare it. -/
def Call.ChangesPlan : Call → Prop
  | .activate _ _ _ _ => False
  | _ => True

def changes (env : Env) (faults : Faults) : Service Key Row Call Result :=
  (service env faults).restrict Call.ChangesPlan

section

variable (parent : String) (student : Text) (week : ZurichWeek ledger.zone)

def storedGrant (t : Table Key Row) : Option Relationships.GrantRow :=
  t.row (.account (.grant parent student.val))

/-- A reservation of the student starts in the week, under the plan and the
allowance version of the active grant. -/
def CarriesGrant (t : Table Key Row) (c : Allowance.Call ledger) : Prop :=
  ∀ v, c.checked = .ok (.reserve v) → v.beneficiary = student → v.week = week ∧
    ∃ grant, Relationships.activeGrant (storedGrant parent student t) parent student.val =
      some grant ∧ v.budget.planId = grant.planId ∧
        v.budget.allowanceVersion.val = grant.allowanceVersion

/-- A plan and an allowance version that were the grant's, or would do for it, as
long as it is active. -/
def Covers (grant : Option Relationships.GrantRow) (plan : BillingPlanId) (version : ℤ) : Prop :=
  ∃ row, grant = some row ∧ (row.grantStatus = "active" →
    version < row.allowanceVersion ∨ version = row.allowanceVersion ∧ plan = row.planId)

/-- The budgets of a plan. -/
def HasBudget (fields : Allowance.TokenFields) : Prop :=
  fields.budgetInputTokens = (LOCKED_BUDGETS fields.planId).1 ∧
    fields.budgetOutputTokens = (LOCKED_BUDGETS fields.planId).2.1

/-- What is stored on the counter of the week agrees with the grant. -/
def Agrees (t : Table Key Row) (u : Table Allowance.Key Allowance.Row) : Prop :=
  Allowance.CounterHolds student week.toWeekFields (fun fields => HasBudget fields ∧
    Covers (storedGrant parent student t) fields.planId fields.allowanceVersion) u

end

/-- A transition to a paid plan raises the allowance version of the grants that it
finds. -/
def Call.RaisesAllowance : Call → Table Key Row → Prop
  | .transition (.applyDue r), t =>
    ∀ transition, t.row r.key.key = some transition → transition.targetPlan ≠ .freeTrial →
      ∀ beneficiary ∈ transition.beneficiaryIds, ∀ grant,
        t.row (.account (.grant r.parentId beneficiary)) = some grant →
          grant.allowanceVersion < transition.planVersion
  | _, _ => True

/-! ## One commit -/

theorem historical_ne_active : ("historical" : String) ≠ "active" := by decide

theorem Covers.restamps {c : Call} {t : Table Key Row} {parent beneficiary : String}
    {stored : Option Relationships.GrantRow} {grant : Relationships.GrantRow}
    {plan : BillingPlanId} {version : ℤ} (h : Covers stored plan version)
    (hrestamps : c.Restamps t parent beneficiary stored grant) (hchanges : c.ChangesPlan)
    (hraises : c.RaisesAllowance t)
    (hstored : t.row (.account (.grant parent beneficiary)) = stored) :
    Covers (some grant) plan version := by
  obtain ⟨row, rfl, hcovers⟩ := h
  have hle : row.grantStatus = "active" → version ≤ row.allowanceVersion := fun hactive => by
    rcases hcovers hactive with hlt | ⟨heq, -⟩
    · exact hlt.le
    · exact heq.le
  refine ⟨grant, rfl, fun hactive => .inl ?_⟩
  cases hrestamps with
  | published r command billingProjection allowanceItem _ _ owner student versions =>
      exact hchanges.elim
  | raised r _ _ active grantVersion planVersion allowanceVersion =>
      exact (hle active).trans_lt allowanceVersion
  | transitioned r previous _ _ transition owner student active older ended grantVersion planVersion
      allowanceVersion =>
      subst owner
      have htarget : previous.targetPlan ≠ .freeTrial := fun hfree =>
        historical_ne_active ((ended hfree).symm.trans hactive)
      have hraised := hraises previous transition htarget beneficiary student row hstored
      rw [allowanceVersion]
      exact (hle active).trans_lt hraised

theorem Covers.move {c : Call} {t t' : Table Key Row} {parent : String} {student : Text}
    {plan : BillingPlanId} {version : ℤ} (h : Covers (storedGrant parent student t) plan version)
    (hmove : c.Move env t t') (hchanges : c.ChangesPlan) (hraises : c.RaisesAllowance t) :
    Covers (storedGrant parent student t') plan version := by
  rcases hmove.grant parent student.val with hsame | ⟨grant, hgrant, hrestamps⟩
  · rwa [storedGrant, hsame]
  · rw [storedGrant, hgrant]
    exact h.restamps hrestamps hchanges hraises rfl

/-- What the active grant says is covered by what has been. -/
theorem Covers.current {t : Table Key Row} {parent : String} {student : Text}
    {plan : BillingPlanId} {version : ℤ} (h : Covers (storedGrant parent student t) plan version)
    {grant : Relationships.GrantRow}
    (hgrant : Relationships.activeGrant (storedGrant parent student t) parent student.val =
      some grant) :
    version ≤ grant.allowanceVersion ∧ (version = grant.allowanceVersion → plan = grant.planId) := by
  obtain ⟨hstored, hactive⟩ := Option.filter_eq_some_iff.mp hgrant
  obtain ⟨-, -, -, -, hactive, -⟩ := of_decide_eq_true hactive
  obtain ⟨row, hrow, hcovers⟩ := h
  cases hstored.symm.trans hrow
  rcases hcovers hactive with hlt | ⟨rfl, rfl⟩
  · exact ⟨hlt.le, fun heq => absurd heq hlt.ne⟩
  · exact ⟨le_rfl, fun _ => rfl⟩

theorem Covers.of_active {t : Table Key Row} {parent : String} {student : Text}
    {grant : Relationships.GrantRow}
    (hgrant : Relationships.activeGrant (storedGrant parent student t) parent student.val =
      some grant) :
    Covers (storedGrant parent student t) grant.planId grant.allowanceVersion :=
  ⟨grant, (Option.filter_eq_some_iff.mp hgrant).1, fun _ => .inr ⟨rfl, rfl⟩⟩

theorem reserve_hasBudget (v : Allowance.Reserve ledger) (generation : ℤ) :
    HasBudget (v.fields generation) := by
  have hlocked := v.budget.locked
  unfold HasBudget Allowance.Reserve.fields
  rw [← hlocked]
  exact ⟨rfl, rfl⟩

/-! ## Every run -/

/-- A student with an active grant is admitted with it, whatever has been stored
on the counter of the week. -/
structure KeepsAdmitting (ledger : Allowance.Env) (parent : String) (student : Text)
    (week : ZurichWeek ledger.zone) (t : Table Key Row)
    (u : Table Allowance.Key Allowance.Row) : Prop where
  counter : ∀ grant, Relationships.activeGrant (storedGrant parent student t) parent student.val =
    some grant → Allowance.CounterHolds student week.toWeekFields (fun fields =>
      fields.allowanceVersion ≤ grant.allowanceVersion ∧
        (fields.allowanceVersion = grant.allowanceVersion →
          fields.planId = grant.planId ∧ HasBudget fields)) u
  admitted : ∀ (r : Allowance.ReserveRequest ledger) (v : Allowance.Reserve ledger),
    r.checked = .ok v → v.beneficiary = student →
      CarriesGrant parent student week t (.reserve r) → v.Fits u →
        ∃ reservation, ((Allowance.reserveAllowance r).alone u).1 = .ok ⟨.admitted, some reservation⟩

section

variable {parent : String} {student : Text} {week : ZurichWeek ledger.zone}

/-- The plan of the grant, under another version of it or under the same. -/
theorem Agrees.keepsAdmitting {t : Table Key Row} {u : Table Allowance.Key Allowance.Row}
    (h : Agrees parent student week t u) : KeepsAdmitting ledger parent student week t u where
  counter := by
    intro grant hgrant
    refine h.mono fun fields hboth => ?_
    obtain ⟨hbudget, hcovers⟩ := hboth
    obtain ⟨hle, hplan⟩ := hcovers.current hgrant
    exact ⟨hle, fun heq => ⟨hplan heq, hbudget⟩⟩
  admitted := by
    rintro r v hchecked rfl hcarries hfits
    have hreserve : (Allowance.Call.reserve r).checked = .ok (.reserve v) := by
      rw [Allowance.Call.checked, hchecked]
      rfl
    obtain ⟨rfl, grant, hgrant, hplan, hversion⟩ := hcarries v hreserve rfl
    refine Allowance.reserve_alone_admitted hchecked hfits (h.mono fun fields hboth => ?_)
    obtain ⟨hbudget, hcovers⟩ := hboth
    obtain ⟨hle, hsame⟩ := hcovers.current hgrant
    rw [← hversion] at hle hsame
    refine ⟨hle, fun heq => ?_⟩
    have hplan' : fields.planId = v.budget.planId := (hsame heq).trans hplan.symm
    obtain ⟨hinput, houtput⟩ := reserve_hasBudget v 0
    rw [HasBudget, hplan'] at hbudget
    exact ⟨hplan', hbudget.1.trans hinput.symm, hbudget.2.trans houtput.symm⟩

/-- While every transition to a paid plan raises the allowance version, a student
keeps being admitted on the active grant. -/
theorem paid_student_admitted {faults faults' : Faults} {t : Table Key Row}
    {u : Table Allowance.Key Allowance.Row}
    {j : Joint Key Row Call Result Allowance.Key Allowance.Row (Allowance.Call ledger)
      (Allowance.Result ledger)}
    (hfresh : Allowance.Fresh u)
    (h : Joint.Reachable (changes env faults) (Allowance.service ledger faults')
      (CarriesGrant parent student week) t u j)
    (hraises : ∀ e ∈ j.left.history, e.call.RaisesAllowance e.before) :
    KeepsAdmitting ledger parent student week j.left.table j.right.table := by
  have hsafe : ∀ (c : Call) (t : Table Key Row), entitlements.Inv t →
      ((changes env faults).body c).Safe faults entitlements (c.Move env) (Quiet _) [] t :=
    fun c _ _ => c.body_safe
  have hsound := Reachable.sound (Γ := (contract env faults).restrict Call.ChangesPlan)
    h.left_reachable trivial (Q := fun _ => Quiet _) hsafe
  have hchanges : ∀ e ∈ j.left.history, e.call.ChangesPlan := fun e he => by
    obtain ⟨-, -, -, -, hchanges⟩ := hsound.history_time e he
    exact hchanges
  refine Agrees.keepsAdmitting (h.invariant ((contract env faults).restrict Call.ChangesPlan)
    (Allowance.contract ledger faults') (fun _ => Quiet _) Allowance.Call.Owes
    trivial hfresh.ledger hsafe (fun d u _ => d.body_safe faults' u)
    (fun t d => ∀ v, d.checked = .ok (.reserve v) → v.beneficiary = student →
      v.week = week ∧
        Covers (storedGrant parent student t) v.budget.planId v.budget.allowanceVersion.val)
    (fun c t => c.ChangesPlan ∧ c.RaisesAllowance t) ?_ ?_ ?_ ?_ ?_ ?_
    (fun e he => ⟨hchanges e he, hraises e he⟩)).1
  · intro t d hcarries v hchecked hstudent
    obtain ⟨hweek, grant, hgrant, hplan, hversion⟩ := hcarries v hchecked hstudent
    rw [hplan, hversion]
    exact ⟨hweek, .of_active hgrant⟩
  · rintro c t t' - hmove ⟨hplan, hraised⟩
    refine ⟨fun d hgood v hchecked hstudent => ?_, fun u hagrees => ?_⟩
    · obtain ⟨hweek, hcovers⟩ := hgood v hchecked hstudent
      exact ⟨hweek, hcovers.move hmove hplan hraised⟩
    · exact hagrees.mono fun fields ⟨hbudget, hcovers⟩ =>
        ⟨hbudget, hcovers.move hmove hplan hraised⟩
  · rintro t t' - hdrift
    have hsame : storedGrant parent student t' = storedGrant parent student t := hdrift _ trivial
    refine ⟨fun d hgood => ?_, fun u hagrees => ?_⟩
    · rw [hsame]
      exact hgood
    · rw [Agrees, hsame]
      exact hagrees
  · rintro d t u u' - hgood hagrees hcommits
    refine hagrees.commits hcommits fun v hchecked hstudent _ => ?_
    obtain ⟨rfl, hcovers⟩ := hgood v hchecked hstudent
    exact ⟨rfl, fun generation => ⟨reserve_hasBudget v generation, hcovers⟩⟩
  · rintro t u u' - hagrees hdrift row hrow
    rw [hdrift _ (by simp)] at hrow
    exact hagrees row hrow
  · intro row hrow
    have hnone := hfresh (.counter student week.toWeekFields.identity) (by simp)
    cases hrow.symm.trans hnone

end

/-! ## A transition below the version of an upgrade -/

namespace Sample

/-- The table after the activation. -/
def granted : Table Key Row := (solo activate (.initial start)).table

abbrev Sides := Joint Key Row Call Result Allowance.Key Allowance.Row
  (Allowance.Call Allowance.Sample.sampleEnv) (Allowance.Result Allowance.Sample.sampleEnv)

def ReachableSides (j : Sides) : Prop :=
  Joint.Reachable (changes sampleEnv .strongReads)
    (Allowance.service Allowance.Sample.sampleEnv .strongReads)
    (CarriesGrant "parent" Allowance.Sample.student Allowance.Sample.week) granted
    Allowance.Sample.start j

def change (c : Call) (j : Sides) : Sides :=
  ⟨j.left.solo (changes sampleEnv .strongReads) c [], j.right⟩

def reserve (c : Allowance.Call Allowance.Sample.sampleEnv) (j : Sides) : Sides :=
  ⟨j.left, j.right.solo (Allowance.service Allowance.Sample.sampleEnv .strongReads) c []⟩

theorem change_reachable {c : Call} {j : Sides} (h : ReachableSides j) (hc : c.ChangesPlan) :
    ReachableSides (change c j) :=
  h.left_steps (State.solo_steps trivial trivial (And.intro trivial hc) [])

theorem reserve_reachable {c : Allowance.Call Allowance.Sample.sampleEnv} {j : Sides}
    (h : ReachableSides j)
    (hc : CarriesGrant "parent" Allowance.Sample.student Allowance.Sample.week j.left.table c) :
    ReachableSides (reserve c j) :=
  h.right_steps (State.solo_steps (S := (Allowance.service Allowance.Sample.sampleEnv
    .strongReads).restrict _) trivial trivial (And.intro trivial hc) [])

/-- The family plan, under an allowance version of its own. -/
def raise : Call := .upgrade {
  parentId := "parent"
  beneficiaryIds := ["student"]
  subscriptionIdDigest := subscription
  commandId := "command"
  planId := .family
  planVersion := 2
  allowanceVersion := 5
  activationVersion := 1772323201
  activatedAt := periodEnd }

/-- The student plan at the end of the period. -/
def scheduleStudent (planVersion : ℤ) : Call := .transition (.schedule {
  parentId := "parent"
  beneficiaryIds := ["student"]
  subscriptionIdDigest := subscription
  currentPlan := .family
  targetPlan := .student
  planVersion := planVersion
  periodEnd := periodEnd })

def familyBudget : PlanAllowanceBudget where
  planId := .family
  inputTokens := ⟨1000000, by decide⟩
  outputTokens := ⟨200000, by decide⟩
  teacherSupportCases := ⟨10, by decide⟩
  teacherSupportScope := .sharedFamily
  allowanceVersion := ⟨5, by decide⟩
  locked := rfl

theorem zero_isCount : IsCount 0 := by decide

def studentBudget : PlanAllowanceBudget where
  planId := .student
  inputTokens := ⟨500000, by decide⟩
  outputTokens := ⟨100000, by decide⟩
  teacherSupportCases := ⟨0, zero_isCount⟩
  teacherSupportScope := .none
  allowanceVersion := ⟨3, by decide⟩
  locked := rfl

def reservation (budget : PlanAllowanceBudget) (effect : Char) :
    Allowance.ReserveRequest Allowance.Sample.sampleEnv where
  beneficiaryId := "student"
  effectId := String.ofList (List.replicate 64 effect)
  week := Allowance.Sample.week
  budget := budget
  inputTokens := 40
  outputTokens := 10
  observedAt := 1774300000000000
  accountFenceGeneration := none

def activeGrant (j : Sides) : Option Relationships.GrantRow :=
  Relationships.activeGrant (storedGrant "parent" Allowance.Sample.student j.left.table) "parent"
    "student"

/-- A reservation under the plan and the allowance version of the active grant. -/
theorem reservation_carries {j : Sides} {budget : PlanAllowanceBudget} {effect : Char}
    (h : (activeGrant j).map (fun grant => (grant.planId, grant.allowanceVersion)) =
      some (budget.planId, budget.allowanceVersion.val)) :
    CarriesGrant "parent" Allowance.Sample.student Allowance.Sample.week j.left.table
      (.reserve (reservation budget effect)) := by
  intro v hchecked _
  obtain ⟨grant, hgrant, hpair⟩ := Option.map_eq_some_iff.mp h
  obtain ⟨hplan, hversion⟩ := Prod.mk.inj hpair
  obtain ⟨x, hx, hv⟩ := bind_eq_ok.mp hchecked
  cases hv
  obtain ⟨_, -, hx⟩ := bind_eq_ok.mp hx
  obtain ⟨_, -, hx⟩ := bind_eq_ok.mp hx
  obtain ⟨_, -, hx⟩ := bind_eq_ok.mp hx
  obtain ⟨_, -, hx⟩ := bind_eq_ok.mp hx
  split at hx
  · cases hx
  · cases hx
    exact ⟨rfl, grant, hgrant, hplan.symm, hversion.symm⟩

/-- The plan is raised, and a reservation made with it. -/
def raised : Sides :=
  reserve (.reserve (reservation familyBudget '7')) (change raise ⟨.initial granted,
    .initial Allowance.Sample.start⟩)

/-- The transition at the end of the period, to a plan version. -/
def applied (planVersion : ℤ) : Sides := change applyDue (change (scheduleStudent planVersion) raised)

theorem applied_reachable (planVersion : ℤ) : ReachableSides (applied planVersion) := by
  refine change_reachable (change_reachable (reserve_reachable (change_reachable .refl trivial)
    (reservation_carries ?_)) trivial) trivial
  decide +kernel

/-- What the reservation of the lowered plan becomes once it is checked. -/
def lateReservation : Allowance.Reserve Allowance.Sample.sampleEnv where
  beneficiary := Allowance.Sample.student
  effect := .ofDigit '8' isLowerHex_8
  week := Allowance.Sample.week
  budget := studentBudget
  requestedInput := ⟨40, by decide⟩
  requestedOutput := ⟨10, by decide⟩
  now := 1774300000000000
  accountFenceGeneration := none
  at_least_one := by decide

theorem lateReservation_checked :
    (reservation studentBudget '8').checked = .ok lateReservation := by
  rfl

theorem lateReservation_fits : lateReservation.Fits (applied 3).right.table where
  unknown := Option.isNone_iff_eq_none.mp (by decide +kernel)
  fence := ⟨1, by decide +kernel, by decide, fun _ h => by cases h⟩
  input := by decide +kernel
  output := by decide +kernel
  version := by
    have hversion : ((applied 3).right.table.row (.counter lateReservation.beneficiary
        lateReservation.week.identity)).map CounterRow.stateVersion = some 1 := by decide +kernel
    intro row hrow
    rw [hrow, Option.map_some, Option.some_inj] at hversion
    rw [hversion]
    decide

end Sample

/-- The allowance version of an upgrade is taken down by the transition, and the
counter of the week refuses the plan that is paid for. -/
theorem lowered_allowance_refused :
    Sample.ReachableSides (Sample.applied 3) ∧
      ¬ KeepsAdmitting Allowance.Sample.sampleEnv "parent" Allowance.Sample.student
        Allowance.Sample.week (Sample.applied 3).left.table (Sample.applied 3).right.table := by
  refine ⟨Sample.applied_reachable 3, fun h => ?_⟩
  obtain ⟨reservation, hadmitted⟩ := h.admitted _ _ Sample.lateReservation_checked rfl
    (Sample.reservation_carries (by decide +kernel)) Sample.lateReservation_fits
  have hrefused : ((Allowance.reserveAllowance (Sample.reservation Sample.studentBudget '8')).alone
      (Sample.applied 3).right.table).1.toOption.map (·.disposition) = some .retryable := by
    decide +kernel
  rw [hadmitted] at hrefused
  cases hrefused

def Call.raisesAllowance (t : Table Key Row) : Call → Bool
  | .transition (.applyDue r) => (t.row r.key.key).all fun transition =>
    transition.targetPlan = .freeTrial || transition.beneficiaryIds.all fun beneficiary =>
      (t.row (.account (.grant r.parentId beneficiary))).all fun grant =>
        grant.allowanceVersion < transition.planVersion
  | _ => true

theorem Call.RaisesAllowance.of_raises {c : Call} {t : Table Key Row}
    (h : c.raisesAllowance t = true) : c.RaisesAllowance t := by
  cases c with
  | transition c =>
      cases c with
      | applyDue r =>
          intro transition htransition hpaid beneficiary hmem grant hgrant
          rw [raisesAllowance, htransition] at h
          rcases Bool.or_eq_true_iff.mp h with hfree | hall
          · exact absurd (of_decide_eq_true hfree) hpaid
          · have hraised := List.all_eq_true.mp hall beneficiary hmem
            rw [hgrant] at hraised
            exact of_decide_eq_true hraised
      | schedule | startGrace | clearGrace => trivial
  | activate r command billingProjection allowanceItem => trivial
  | upgrade r => trivial

/-- The transition has a greater version than the upgrade. -/
theorem paid_student_admitted_sample :
    KeepsAdmitting Allowance.Sample.sampleEnv "parent" Allowance.Sample.student
      Allowance.Sample.week (Sample.applied 6).left.table (Sample.applied 6).right.table := by
  refine paid_student_admitted Allowance.Sample.start_fresh (Sample.applied_reachable 6)
    fun e he => ?_
  have hraises : ((Sample.applied 6).left.history.all fun e =>
      e.call.raisesAllowance e.before) = true := by decide +kernel
  exact .of_raises (List.all_eq_true.mp hraises e he)

end Stoa.PaidEntitlement
