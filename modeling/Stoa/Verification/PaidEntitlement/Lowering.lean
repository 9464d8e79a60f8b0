import Stoa.Verification.PaidEntitlement.GrantVersions

/-! # When a plan is lowered again

One row carries the period ends of a subscription. A request replaces what is
scheduled on it, but nothing that has been applied. -/

namespace Stoa.PaidEntitlement

open RowStore Billing

variable {env : Env}

/-! ## The stored period ends -/

/-- A period end is stored as it is written: scheduled, or applied. -/
structure IsPeriodEnd (row : TransitionRow) : Prop where
  entityType : row.entityType = "paid_transition"
  schemaVersion : row.schemaVersion = TRANSITION_SCHEMA_VERSION
  planVersion : 1 ≤ row.planVersion
  transitionVersion : 1 ≤ row.transitionVersion
  status : row.status = .scheduled ∨ row.status = .applied

def PeriodEnds (t : Table Key Row) : Prop :=
  ∀ k : TransitionKey, k.transitionKind = .periodEnd → ∀ row, t.row k.key = some row → IsPeriodEnd row

theorem PeriodEnds.transitionItem {t : Table Key Row} (h : PeriodEnds t) {k : TransitionKey}
    (hkind : k.transitionKind = .periodEnd) : transitionItem (t.row k.key) = t.row k.key := by
  cases hrow : t.row k.key with
  | none => rfl
  | some row =>
      have hend := h k hkind row hrow
      simp [PaidEntitlement.transitionItem, hend.entityType, hend.schemaVersion]

theorem PeriodEnds.agree {t u : Table Key Row} (h : PeriodEnds t) (hagrees : u.AgreesOn IsEntitlement t) :
    PeriodEnds u := by
  intro k hkind row hrow
  rw [hagrees k.key trivial] at hrow
  exact h k hkind row hrow

theorem one_le_of_positiveInteger {value n : ℤ} {field : String}
    (h : positiveInteger value field = .ok n) : n = value ∧ 1 ≤ value := by
  unfold positiveInteger at h
  split at h
  · cases h
    exact ⟨rfl, ‹_›⟩
  · cases h

theorem one_le_of_nextTransitionVersion {previous : Option TransitionRow} {version : ℤ}
    (h : nextTransitionVersion previous = .ok version) : 1 ≤ version := by
  cases previous with
  | none =>
      cases h
      exact le_rfl
  | some row =>
      obtain ⟨n, hn, h⟩ := bind_eq_ok.mp h
      obtain ⟨rfl, hle⟩ := one_le_of_positiveInteger hn
      cases h
      omega

/-- What a checked request is made of. -/
structure ScheduleRequest.Checked (r : ScheduleRequest) (beneficiaries : List String) : Prop where
  parent : requireText r.parentId "parent_id" 1 200 = .ok r.parentId
  beneficiaries : transitionBeneficiaries r.beneficiaryIds = .ok beneficiaries
  planVersion : 1 ≤ r.planVersion
  periodEnd : r.periodEnd.utcoffset.isSome

theorem ScheduleRequest.checked_eq_ok {r : ScheduleRequest} {beneficiaries : List String}
    (h : r.checked = .ok beneficiaries) : r.Checked beneficiaries := by
  obtain ⟨parent, hparent, h⟩ := bind_eq_ok.mp h
  obtain ⟨found, hfound, h⟩ := bind_eq_ok.mp h
  split at h
  · cases h
  obtain ⟨n, hn, h⟩ := bind_eq_ok.mp h
  obtain ⟨time, htime, h⟩ := bind_eq_ok.mp h
  cases h
  refine ⟨eq_of_requireText hparent ▸ hparent, hfound, (one_le_of_positiveInteger hn).2, ?_⟩
  unfold requireAware at htime
  split at htime
  · assumption
  · cases htime

section

variable {t t' : Table Key Row}

theorem TransitionCall.Move.periodEnds {I : Interference Key Row} {c : TransitionCall}
    (h : c.Move env I t t') (hends : PeriodEnds t) : PeriodEnds t' := by
  obtain ⟨ops, htransaction, hadmits, rfl⟩ := h
  intro k hkind row hrow
  cases htransaction with
  | scheduled r beneficiaries version checked replaces next =>
      by_cases hk : k = r.key
      · subst hk
        rw [transitionPut_apply, Table.row_set_self] at hrow
        cases hrow
        exact ⟨rfl, rfl, (r.checked_eq_ok checked).planVersion,
          one_le_of_nextTransitionVersion next, .inl rfl⟩
      · rw [row_apply_transitionPut fun he => hk (TransitionKey.key_inj.mp he)] at hrow
        exact hends k hkind row hrow
  | graceStarted r =>
      have hk : k ≠ r.key := by
        rintro rfl
        cases hkind
      rw [row_apply_transitionPut fun he => hk (TransitionKey.key_inj.mp he)] at hrow
      exact hends k hkind row hrow
  | graceCleared r =>
      have hk : k ≠ r.key := by
        rintro rfl
        cases hkind
      rw [row_apply_transitionPut fun he => hk (TransitionKey.key_inj.mp he)] at hrow
      exact hends k hkind row hrow
  | applied r previous beneficiaries grants version stored identity status due checked next accepted =>
      by_cases hk : k = r.key
      · subst hk
        rw [ApplyRequest.row_apply hadmits] at hrow
        cases hrow
        exact { hends _ hkind previous stored with
          transitionVersion := one_le_of_nextTransitionVersion next
          status := .inr rfl }
      · have hsame : (t.apply (r.operations env previous grants version)).row k.key = t.row k.key :=
          r.row_apply_of_other accepted (fun he => hk (TransitionKey.key_inj.mp he))
            (fun _ _ he => by cases he) fun _ _ _ _ _ he => by cases he
        exact hends k hkind row (hsame ▸ hrow)

/-- Activations and upgrades write no transition. -/
theorem Call.Move.periodEnds {c : Call} (h : c.Move env t t') (hends : PeriodEnds t) :
    PeriodEnds t' := by
  obtain ⟨ops, htransaction, hadmits, rfl⟩ := h
  cases htransaction with
  | transition c ops submitted =>
      exact TransitionCall.Move.periodEnds ⟨ops, submitted, hadmits, rfl⟩ hends
  | activated r command billingProjection allowanceItem grantItems grantOperations published =>
      intro k hkind row hrow
      rw [activation_frame (fun key => key = k.key) t (by simp) (by simp) (by simp) (by simp)
        (by simp) _ rfl] at hrow
      exact hends k hkind row hrow
  | raised r proofs raises =>
      intro k hkind row hrow
      rcases Table.AgreesOn.row_apply_or_write t (r.operations env proofs true) k.key with
        hsame | ⟨w, hw, hkey, hwrites⟩
      · exact hends k hkind row (hsame ▸ hrow)
      rcases UpgradeRequest.mem_operations hw with hid | ⟨x, hx, rfl⟩
      · exact absurd hid hwrites
      · cases hkey

end

/-- In every run the period ends stay well formed. -/
theorem periodEnds_reachable {faults : Faults} {t : Table Key Row} {s : State Key Row Call Result}
    (hstart : PeriodEnds t) (h : Reachable (service env faults) t s) : PeriodEnds s.table := by
  have hsafe : ∀ (c : Call) (u : Table Key Row), entitlements.Inv u →
      ((service env faults).body c).Safe faults entitlements (c.Move env) (Quiet _) [] u :=
    fun c _ _ => c.body_safe
  refine (Reachable.traced (Γ := contract env faults) (Q := fun _ => Quiet _) h trivial hsafe
    (P := fun _ u => PeriodEnds u) (R := fun _ _ => True) hstart
    (fun e H _ hmove _ hP => Call.Move.periodEnds hmove hP) (fun H u u' _ hP hd => hP.agree hd)
    fun _ _ => trivial).1

/-! ## A request that runs alone -/

section

variable {t : Table Key Row} {r : ScheduleRequest} {beneficiaries : List String}

/-- What is scheduled, and is not this very request, may be replaced. -/
def ScheduleRequest.MayReplace (env : Env) (r : ScheduleRequest) (previous : TransitionRow) : Prop :=
  previous.transitionIdentity ≠ r.identity env ∧ previous.status ≠ .applied

theorem ScheduleRequest.refused_eq_none {previous : TransitionRow} (hend : IsPeriodEnd previous)
    (hlater : previous.planVersion < r.planVersion) :
    r.refused env previous = none ↔ r.MayReplace env previous := by
  have hpositive := hend.planVersion
  unfold refused MayReplace
  split
  · simp_all
  · split
    · rename_i hidentity hconflict
      rcases hconflict with hlt | hle | happlied
      · omega
      · omega
      · simp [happlied]
    · rename_i hidentity hconflict
      push Not at hconflict
      simp [hidentity, hconflict.2.2]

theorem ScheduleRequest.refused_ne_scheduled {previous : TransitionRow} :
    r.refused env previous ≠ some .scheduled := by
  unfold refused
  split
  · simp
  · split <;> simp

theorem schedule_alone_refused (hchecked : r.checked = .ok beneficiaries) (hends : PeriodEnds t)
    {disposition : PaidTransitionDisposition}
    (h : (t.row r.key.key).bind (r.refused env) = some disposition) :
    (schedulePeriodEndTransition env r).alone t = (.ok ⟨disposition, t.row r.key.key⟩, t) := by
  rw [schedulePeriodEndTransition, hchecked]
  simp only [ScheduleRequest.run, Program.alone, hends.transitionItem (k := r.key) rfl, h, answer]

/-- A transition is replaced by who has read it. -/
theorem transitionPut_met {k : TransitionKey} {item : TransitionRow} {previous : Option TransitionRow}
    (h : t.row k.key = previous) :
    (transitionPut k item previous).condition (t.row (transitionPut k item previous).key) = true := by
  cases previous with
  | none => exact Option.isNone_iff_eq_none.mpr h
  | some row =>
      change (t.row k.key).any (unchanged row) = true
      simp [h, unchanged]

theorem persistTransition_alone {k : TransitionKey} {item : TransitionRow}
    {success : PaidTransitionDisposition} :
    (persistTransition k item (t.row k.key) success).alone t =
      (.ok ⟨success, some item⟩, t.set k.key (some item)) := by
  have hadmits : t.Admits [transitionPut k item (t.row k.key)] := by
    refine ⟨List.nodup_singleton _, fun w hw => ?_⟩
    rw [List.mem_singleton.mp hw]
    exact transitionPut_met rfl
  rw [persistTransition, Program.alone, if_pos hadmits, transitionPut_apply]
  rfl

theorem schedule_alone (hchecked : r.checked = .ok beneficiaries) (hends : PeriodEnds t)
    (h : (t.row r.key.key).bind (r.refused env) = none) :
    ∃ version, 1 ≤ version ∧ (schedulePeriodEndTransition env r).alone t =
      (.ok ⟨.scheduled, some (r.item env beneficiaries version)⟩,
        t.set r.key.key (some (r.item env beneficiaries version))) := by
  obtain ⟨version, hversion⟩ : ∃ version, nextTransitionVersion (t.row r.key.key) = .ok version := by
    cases hrow : t.row r.key.key with
    | none => exact ⟨1, rfl⟩
    | some row =>
        have hpositive := (hends r.key rfl row hrow).transitionVersion
        exact ⟨row.transitionVersion + 1, by simp [nextTransitionVersion, positiveInteger, hpositive]⟩
  refine ⟨version, one_le_of_nextTransitionVersion hversion, ?_⟩
  rw [schedulePeriodEndTransition, hchecked]
  simp only [ScheduleRequest.run, Program.alone, hends.transitionItem (k := r.key) rfl, h, hversion]
  exact persistTransition_alone

end

/-! ## An application that runs alone -/

theorem mapM_eq_some {α β : Type} {f : α → Option β} {xs : List α} {ys : List β} :
    xs.mapM f = some ys ↔ List.Forall₂ (fun x y => f x = some y) xs ys := by
  induction xs generalizing ys with
  | nil => simp [eq_comm]
  | cons x xs ih =>
      rw [List.forall₂_cons_left_iff]
      simp only [List.mapM_cons, bind, Option.bind_eq_some_iff, pure, Option.some_inj, ih]
      constructor
      · rintro ⟨y, hy, ys', hys, rfl⟩
        exact ⟨y, ys', hy, hys, rfl⟩
      · rintro ⟨y, ys', hy, hys, rfl⟩
        exact ⟨y, hy, ys', hys, rfl⟩

theorem exists_of_mem_left {α β : Type} {R : α → β → Prop} {xs : List α} {ys : List β}
    (h : List.Forall₂ R xs ys) {x : α} (hx : x ∈ xs) : ∃ y ∈ ys, R x y := by
  induction h with
  | nil => cases hx
  | cons hr _ ih =>
      rcases List.mem_cons.mp hx with rfl | hx
      · exact ⟨_, List.mem_cons_self .., hr⟩
      · obtain ⟨y, hy, hxy⟩ := ih hx
        exact ⟨y, List.mem_cons_of_mem _ hy, hxy⟩

theorem readGrants_alone (parent : String)
    (accept : String → Option Relationships.GrantRow → Option Relationships.GrantRow)
    (beneficiaries : List String) (t : Table Key Row) :
    (readGrants parent accept beneficiaries).alone t =
      (.ok (beneficiaries.mapM fun beneficiary =>
        accept beneficiary (t.row (.account (.grant parent beneficiary)))), t) := by
  induction beneficiaries with
  | nil => rfl
  | cons beneficiary rest ih =>
      rw [readGrants, Program.alone, List.mapM_cons]
      dsimp only
      cases haccept : accept beneficiary (t.row (.account (.grant parent beneficiary))) with
      | none => rfl
      | some grant =>
          rw [Program.alone_bind, ih]
          cases rest.mapM fun beneficiary =>
            accept beneficiary (t.row (.account (.grant parent beneficiary))) <;> rfl

section

variable {t : Table Key Row} {a : ApplyRequest} {previous : TransitionRow} {beneficiaries : List String}

/-- The stored transition is due, and can be read. -/
structure ApplyRequest.Ready (a : ApplyRequest) (previous : TransitionRow) (beneficiaries : List String)
    (t : Table Key Row) : Prop where
  checked : a.checked = .ok ()
  stored : t.row a.key.key = some previous
  found : transitionItem (some previous) = some previous
  identity : previous.transitionIdentity = a.transitionIdentity
  status : previous.status = a.expectedStatus
  aware : previous.effectiveAt.utcoffset.isSome
  due : previous.effectiveAt.instant ≤ a.now.instant
  planVersion : 1 ≤ previous.planVersion
  transitionVersion : 1 ≤ previous.transitionVersion
  beneficiaries : transitionBeneficiaries previous.beneficiaryIds = .ok beneficiaries

/-- The grants that are found for the beneficiaries, where all are as expected. -/
def ApplyRequest.dueGrants (a : ApplyRequest) (previous : TransitionRow) (beneficiaries : List String)
    (t : Table Key Row) : Option (List Relationships.GrantRow) :=
  beneficiaries.mapM fun beneficiary =>
    a.dueGrant previous beneficiary (t.row (.account (.grant a.parentId beneficiary)))

theorem ApplyRequest.Ready.applies (h : a.Ready previous beneficiaries t) :
    (applyDuePaidTransition env a).alone t = (a.applyDue env previous).alone t := by
  have hopen : ¬ (a.expectedStatus = .applied ∨ a.expectedStatus = .cleared) := by
    rw [ApplyRequest.expectedStatus]
    cases a.transitionKind <;> simp
  have haware : ¬ previous.effectiveAt.utcoffset.isNone = true := by
    have := h.aware
    cases hoffset : previous.effectiveAt.utcoffset <;> simp_all
  rw [applyDuePaidTransition, h.checked]
  simp only [ApplyRequest.run, Program.alone, h.stored, h.found, h.identity, ne_eq, not_true_eq_false,
    if_false, h.status, hopen, haware, Bool.false_eq_true, not_lt.mpr h.due]

/-- What a transition that is due comes to. -/
theorem ApplyRequest.Ready.alone (h : a.Ready previous beneficiaries t) :
    (applyDuePaidTransition env a).alone t =
      match a.dueGrants previous beneficiaries t with
      | none => (.ok ⟨.conflict, some previous⟩, t)
      | some grants =>
        if t.Admits (a.operations env previous grants (previous.transitionVersion + 1)) then
          (.ok ⟨.applied, some (a.appliedItem previous (previous.transitionVersion + 1))⟩,
            t.apply (a.operations env previous grants (previous.transitionVersion + 1)))
        else (a.refresh previous).alone t := by
  have hnext : nextTransitionVersion (some previous) = .ok (previous.transitionVersion + 1) := by
    simp [nextTransitionVersion, positiveInteger, h.transitionVersion]
  have hplan : positiveInteger previous.planVersion "plan_version" = .ok previous.planVersion :=
    if_pos h.planVersion
  rw [h.applies, ApplyRequest.applyDue, hplan, h.beneficiaries]
  dsimp only
  rw [Program.alone_bind, readGrants_alone, ← ApplyRequest.dueGrants]
  cases a.dueGrants previous beneficiaries t with
  | none => rfl
  | some grants =>
      simp only [ApplyRequest.submit, hnext, Program.alone]
      rfl

/-- A grant that the application finds, whose version is not retained yet. -/
structure ApplyRequest.Replaceable (a : ApplyRequest) (previous : TransitionRow) (t : Table Key Row)
    (beneficiary : String) (grant : Relationships.GrantRow) : Prop where
  stored : t.row (.account (.grant a.parentId beneficiary)) = some grant
  due : a.Due previous beneficiary grant
  unretained : t.row (.grantHistory a.parentId beneficiary grant.grantVersion) = none

variable {grants : List Relationships.GrantRow} {version : ℤ}

theorem map_beneficiaryId
    (h : List.Forall₂ (a.Replaceable previous t) beneficiaries grants) :
    grants.map Relationships.GrantRow.beneficiaryId = beneficiaries := by
  induction h with
  | nil => rfl
  | cons hgrant _ ih => rw [List.map_cons, hgrant.due.beneficiary, ih]

theorem ApplyRequest.keys_nodup (h : (grants.map Relationships.GrantRow.beneficiaryId).Nodup) :
    ((a.operations env previous grants version).map Write.key).Nodup := by
  rw [operations, List.map_append, List.map_flatMap, List.map_singleton, transitionPut_key]
  refine List.nodup_append.mpr ⟨List.nodup_flatMap.mpr ⟨fun grant _ => ?_, ?_⟩,
    List.nodup_singleton _, ?_⟩
  · simp [grantOperations, Write.put, Write.putNew]
  · refine (List.pairwise_map.mp h).imp fun {x y} hne => ?_
    simp [Function.onFun, grantOperations, Write.put, Write.putNew, List.Disjoint, hne]
  · intro x hx y hy
    rw [List.mem_singleton.mp hy]
    obtain ⟨grant, -, hx⟩ := List.mem_flatMap.mp hx
    rintro rfl
    simp [grantOperations, Write.put, Write.putNew] at hx

theorem ApplyRequest.admits (hstored : t.row a.key.key = some previous) (hnodup : beneficiaries.Nodup)
    (hgrants : List.Forall₂ (a.Replaceable previous t) beneficiaries grants) :
    t.Admits (a.operations env previous grants version) := by
  refine ⟨ApplyRequest.keys_nodup (map_beneficiaryId hgrants ▸ hnodup), fun w hw => ?_⟩
  rcases mem_operations.mp hw with ⟨grant, hmem, hw⟩ | rfl
  · obtain ⟨beneficiary, -, hgrant⟩ := exists_of_mem_left hgrants.flip hmem
    obtain ⟨hparent, hbeneficiary, hactive, hsubscription, -, -⟩ := hgrant.due
    have hrow := hgrant.stored
    have hhistory := hgrant.unretained
    rw [← hparent, ← hbeneficiary] at hrow hhistory
    rcases List.mem_pair.mp hw with rfl | rfl
    · exact Option.isNone_iff_eq_none.mpr hhistory
    · simp [Write.put, hrow, grantCondition, hactive, hsubscription]
  · exact transitionPut_met hstored

end

/-! ## Lowering -/

/-- The application of a request, once it is scheduled. -/
def ScheduleRequest.due (env : Env) (r : ScheduleRequest) (now : Datetime) : ApplyRequest where
  parentId := r.parentId
  subscriptionIdDigest := r.subscriptionIdDigest
  transitionKind := .periodEnd
  transitionIdentity := r.identity env
  now := now

/-- The beneficiary has an active grant of the subscription, on the current plan. -/
def ScheduleRequest.OnPlan (r : ScheduleRequest) (t : Table Key Row) (beneficiary : String) : Prop :=
  ∃ grant, t.row (.account (.grant r.parentId beneficiary)) = some grant ∧
    Relationships.activeGrant (some grant) r.parentId beneficiary = some grant ∧
    grant.subscriptionIdDigest = r.subscriptionIdDigest ∧ grant.planId = r.currentPlan

/-- What a grant has become under a lower plan. -/
def Lowered (target : BillingPlanId) (grant : Relationships.GrantRow) : Prop :=
  if target = .freeTrial then grant.grantStatus = "historical"
  else grant.grantStatus = "active" ∧ grant.planId = target

/-- A request is scheduled in place of what is stored, and applied once its
period has ended. -/
structure Lowers (env : Env) (r : ScheduleRequest) (beneficiaries : List String)
    (t : Table Key Row) : Prop where
  scheduled : ∃ version u, (schedulePeriodEndTransition env r).alone t =
      (.ok ⟨.scheduled, some (r.item env beneficiaries version)⟩, u) ∧
    u.row r.key.key = some (r.item env beneficiaries version)
  applied : ∀ now : Datetime, now.utcoffset.isSome → r.periodEnd.instant ≤ now.instant →
    ∃ item u, (applyDuePaidTransition env (r.due env now)).alone
        ((schedulePeriodEndTransition env r).alone t).2 = (.ok ⟨.applied, some item⟩, u) ∧
      ∀ beneficiary ∈ beneficiaries, ∃ grant,
        u.row (.account (.grant r.parentId beneficiary)) = some grant ∧ Lowered r.targetPlan grant

section

variable {t : Table Key Row} {r : ScheduleRequest} {beneficiaries : List String}

/-- Beneficiaries are stored sorted, and are read back as they are. -/
theorem transitionBeneficiaries_sorted {values : List String}
    (h : transitionBeneficiaries values = .ok beneficiaries) :
    transitionBeneficiaries beneficiaries = .ok beneficiaries ∧ beneficiaries.Nodup := by
  obtain ⟨checked, hchecked, h⟩ := bind_eq_ok.mp h
  cases mapM_eq_ok eq_of_requireText hchecked
  split at h
  · rename_i hmet
    cases h
    have hperm := List.perm_insertionSort (· ≤ ·) values
    have htexts : (values.insertionSort (· ≤ ·)).mapM
        (fun value => requireText value "beneficiary_id" 1 200) =
          .ok (values.insertionSort (· ≤ ·)) :=
      mapM_self.mpr fun x hx => mapM_self.mp hchecked x (hperm.mem_iff.mp hx)
    have hsorted : (values.insertionSort (· ≤ ·)).insertionSort (· ≤ ·) =
        values.insertionSort (· ≤ ·) :=
      (List.pairwise_insertionSort (· ≤ ·) values).insertionSort_eq
    refine ⟨?_, hperm.nodup_iff.mpr hmet.2.2⟩
    rw [transitionBeneficiaries, htexts]
    simp only [bind, Except.bind, hperm.length_eq, hperm.nodup_iff, hmet, and_self, if_true, hsorted]
    rfl
  · cases h

/-- What has been scheduled is ready once its period has ended. -/
theorem ScheduleRequest.Checked.ready (hchecked : r.Checked beneficiaries) {version : ℤ}
    (hversion : 1 ≤ version) {now : Datetime} (haware : now.utcoffset.isSome)
    (hdue : r.periodEnd.instant ≤ now.instant) :
    (r.due env now).Ready (r.item env beneficiaries version) beneficiaries
      (t.set r.key.key (some (r.item env beneficiaries version))) where
  checked := by
    have hnow : requireAware now "now" = .ok now := if_pos haware
    simp [ApplyRequest.checked, due, hchecked.parent, hnow]
    rfl
  stored := Table.row_set_self ..
  found := rfl
  identity := rfl
  status := rfl
  aware := hchecked.periodEnd
  due := hdue
  planVersion := hchecked.planVersion
  transitionVersion := hversion
  beneficiaries := (transitionBeneficiaries_sorted hchecked.beneficiaries).1

/-- The grant is of an older plan, and its version is not retained yet. -/
def ScheduleRequest.GrantBehind (r : ScheduleRequest) (t : Table Key Row) (beneficiary : String) : Prop :=
  ∀ grant, t.row (.account (.grant r.parentId beneficiary)) = some grant →
    grant.planVersion < r.planVersion ∧
      t.row (.grantHistory r.parentId beneficiary grant.grantVersion) = none

theorem ApplyRequest.refresh_ne_applied {a : ApplyRequest} {previous : TransitionRow}
    {item : Option TransitionRow} : ((a.refresh previous).alone t).1 ≠ .ok ⟨.applied, item⟩ := by
  simp only [refresh, Program.alone]
  split <;> simp [answer, Program.alone]

theorem ApplyRequest.lowered_updatedGrant {a : ApplyRequest} {previous : TransitionRow}
    {grant : Relationships.GrantRow} (hactive : grant.grantStatus = "active") :
    Lowered previous.targetPlan (a.updatedGrant env previous grant) := by
  unfold Lowered updatedGrant
  split
  · rfl
  · exact ⟨hactive, rfl⟩

theorem exists_forall₂ {α β : Type} {R : α → β → Prop} {xs : List α} (h : ∀ x ∈ xs, ∃ y, R x y) :
    ∃ ys, List.Forall₂ R xs ys := by
  induction xs with
  | nil => exact ⟨[], .nil⟩
  | cons x xs ih =>
      obtain ⟨y, hy⟩ := h x (List.mem_cons_self ..)
      obtain ⟨ys, hys⟩ := ih fun z hz => h z (List.mem_cons_of_mem _ hz)
      exact ⟨y :: ys, .cons hy hys⟩

theorem ScheduleRequest.bind_refused_eq_none (hends : PeriodEnds t)
    (hlater : ∀ previous, t.row r.key.key = some previous → previous.planVersion < r.planVersion) :
    (t.row r.key.key).bind (r.refused env) = none ↔
      ∀ previous, t.row r.key.key = some previous → r.MayReplace env previous := by
  cases hrow : t.row r.key.key with
  | none => simp
  | some previous =>
      have hrefused : r.refused env previous = none ↔ r.MayReplace env previous :=
        refused_eq_none (hends r.key rfl previous hrow) (hlater previous hrow)
      simp [hrefused]

/-- The grants of an application that was answered with `applied` were behind. -/
theorem ScheduleRequest.grantBehind_of_applied {a : ApplyRequest} {previous item : TransitionRow}
    {u : Table Key Row} (hready : a.Ready previous beneficiaries t)
    (h : (applyDuePaidTransition env a).alone t = (.ok ⟨.applied, some item⟩, u))
    {beneficiary : String} (hmem : beneficiary ∈ beneficiaries) :
    ∃ grant, a.Replaceable previous t beneficiary grant := by
  rw [hready.alone] at h
  cases hgrants : a.dueGrants previous beneficiaries t with
  | none =>
      rw [hgrants] at h
      cases h
  | some grants =>
      rw [hgrants] at h
      dsimp only at h
      split at h
      · rename_i hadmits
        obtain ⟨grant, hgrant, haccept⟩ := exists_of_mem_left (mapM_eq_some.mp hgrants) hmem
        obtain ⟨hrow, hdue⟩ := a.dueGrant_eq_some haccept
        obtain ⟨stored, hreplaces⟩ := a.replaces hadmits hgrant hdue
        exact ⟨grant, hrow, hdue, hreplaces.unretained⟩
      · exact absurd (congrArg Prod.fst h) ApplyRequest.refresh_ne_applied

/-- An application whose grants are all behind lowers them. -/
theorem ApplyRequest.Ready.applied {a : ApplyRequest} {previous : TransitionRow}
    (hready : a.Ready previous beneficiaries t) (hnodup : beneficiaries.Nodup)
    (h : ∀ beneficiary ∈ beneficiaries, ∃ grant,
      a.dueGrant previous beneficiary (t.row (.account (.grant a.parentId beneficiary))) = some grant ∧
        t.row (.grantHistory a.parentId beneficiary grant.grantVersion) = none) :
    ∃ item u, (applyDuePaidTransition env a).alone t = (.ok ⟨.applied, some item⟩, u) ∧
      ∀ beneficiary ∈ beneficiaries, ∃ grant,
        u.row (.account (.grant a.parentId beneficiary)) = some grant ∧
          Lowered previous.targetPlan grant := by
  obtain ⟨grants, hgrants⟩ := exists_forall₂ h
  have hfound : a.dueGrants previous beneficiaries t = some grants :=
    mapM_eq_some.mpr (hgrants.imp fun _ _ hgrant => hgrant.1)
  have hreplaceable : List.Forall₂ (a.Replaceable previous t) beneficiaries grants :=
    hgrants.imp fun _ _ ⟨haccept, hretained⟩ =>
      ⟨(a.dueGrant_eq_some haccept).1, (a.dueGrant_eq_some haccept).2, hretained⟩
  have hadmits : t.Admits (a.operations env previous grants (previous.transitionVersion + 1)) :=
    a.admits hready.stored hnodup hreplaceable
  have halone : (applyDuePaidTransition env a).alone t =
      (.ok ⟨.applied, some (a.appliedItem previous (previous.transitionVersion + 1))⟩,
        t.apply (a.operations env previous grants (previous.transitionVersion + 1))) := by
    rw [hready.alone, hfound]
    exact if_pos hadmits
  refine ⟨_, _, halone, fun beneficiary hmem => ?_⟩
  obtain ⟨grant, hgrant, hdue⟩ := exists_of_mem_left hreplaceable hmem
  obtain ⟨stored, hreplaces⟩ := a.replaces hadmits hgrant hdue.due
  exact ⟨_, hreplaces.updated, a.lowered_updatedGrant hdue.due.active⟩

end

/-- After any run, a later request lowers the plan exactly where the stored
transition has not been applied, and the grants are behind the request. -/
theorem lowered_iff {faults : Faults} {t : Table Key Row} {s : State Key Row Call Result}
    (hstart : PeriodEnds t) (h : Reachable (service env faults) t s) {r : ScheduleRequest}
    {beneficiaries : List String} (hchecked : r.checked = .ok beneficiaries)
    (hlater : ∀ previous, s.table.row r.key.key = some previous →
      previous.planVersion < r.planVersion)
    (hgrants : ∀ beneficiary ∈ beneficiaries, r.OnPlan s.table beneficiary) :
    Lowers env r beneficiaries s.table ↔
      (∀ previous, s.table.row r.key.key = some previous → r.MayReplace env previous) ∧
        ∀ beneficiary ∈ beneficiaries, r.GrantBehind s.table beneficiary := by
  have hends := periodEnds_reachable hstart h
  have hparts := r.checked_eq_ok hchecked
  have hmay : (s.table.row r.key.key).bind (r.refused env) = none ↔
      ∀ previous, s.table.row r.key.key = some previous → r.MayReplace env previous :=
    ScheduleRequest.bind_refused_eq_none hends hlater
  rw [← hmay]
  constructor
  · intro hlowers
    have hnone : (s.table.row r.key.key).bind (r.refused env) = none := by
      cases hrefused : (s.table.row r.key.key).bind (r.refused env) with
      | none => rfl
      | some disposition =>
          obtain ⟨version, u, halone, -⟩ := hlowers.scheduled
          rw [schedule_alone_refused hchecked hends hrefused] at halone
          obtain ⟨hanswer, -⟩ := Prod.mk.inj halone
          obtain ⟨rfl, -⟩ := PaidTransitionResult.mk.inj (Except.ok.inj hanswer)
          obtain ⟨previous, -, hscheduled⟩ := Option.bind_eq_some_iff.mp hrefused
          exact absurd hscheduled r.refused_ne_scheduled
    refine ⟨hnone, fun beneficiary hmem grant hgrant => ?_⟩
    obtain ⟨version, hversion, halone⟩ := schedule_alone hchecked hends hnone
    obtain ⟨item, u, happlied, -⟩ := hlowers.applied r.periodEnd hparts.periodEnd le_rfl
    rw [halone] at happlied
    obtain ⟨found, hfound⟩ := ScheduleRequest.grantBehind_of_applied
      (hparts.ready hversion hparts.periodEnd le_rfl) happlied hmem
    have hstored := hfound.stored
    have hretained := hfound.unretained
    rw [Table.row_set_of_ne _ _ (by simp)] at hstored hretained
    cases hgrant.symm.trans hstored
    exact ⟨hfound.due.older, hretained⟩
  · rintro ⟨hnone, hbehind⟩
    obtain ⟨version, hversion, halone⟩ := schedule_alone hchecked hends hnone
    refine ⟨⟨version, _, halone, Table.row_set_self ..⟩, fun now haware hdue => ?_⟩
    rw [halone]
    refine ApplyRequest.Ready.applied (hparts.ready hversion haware hdue)
      (transitionBeneficiaries_sorted hparts.beneficiaries).2 fun beneficiary hmem => ?_
    obtain ⟨grant, hgrant, hactive, hsubscription, hplan⟩ := hgrants beneficiary hmem
    obtain ⟨holder, hretained⟩ := hbehind beneficiary hmem grant hgrant
    refine ⟨grant, ?_, ?_⟩
    · rw [Table.row_set_of_ne _ _ (by simp), show (r.due env now).parentId = r.parentId from rfl, hgrant,
        ApplyRequest.dueGrant]
      simp [ScheduleRequest.due, ScheduleRequest.item, hactive, hsubscription, hplan, holder]
    · rwa [Table.row_set_of_ne _ _ (by simp)]

/-! ## A second lowering -/

namespace LoweringSample

/-- Digests that tell the first two requests apart. -/
def sampleEnv : Env where
  transitionIdentity := fun
    | .periodEnd _ planVersion _ _ _ => if planVersion = 2 then .ofDigit 'a' isLowerHex_a else .ofDigit 'b' isLowerHex_b
    | .renewalGrace _ _ _ _ => .ofDigit 'c' isLowerHex_c
  isoformat := fun time => toString time.reading

abbrev Run := State Key Row Call Result

def solo (c : Call) (s : Run) : Run := s.solo (service sampleEnv .strongReads) c []

theorem solo_reachable {c : Call} {s : Run}
    (h : Reachable (service sampleEnv .strongReads) Sample.start s) :
    Reachable (service sampleEnv .strongReads) Sample.start (solo c s) :=
  h.trans (State.solo_steps trivial trivial trivial [])

theorem start_periodEnds : PeriodEnds Sample.start := by
  intro k _ row hrow
  rw [Sample.start, Table.row_apply_of_notMem _ _ _ (by simp [Write.putNew, Write.put])] at hrow
  cases hrow

/-- A lowering to the student plan is scheduled. -/
def scheduled : Run := solo Sample.schedule (solo Sample.activate (.initial Sample.start))

/-- And applied. -/
def lowered : Run := solo Sample.applyDue scheduled

theorem scheduled_reachable : Reachable (service sampleEnv .strongReads) Sample.start scheduled :=
  solo_reachable (solo_reachable .refl)

/-- The subscription is to end instead, or next. -/
def ending (current : BillingPlanId) : ScheduleRequest where
  parentId := "parent"
  beneficiaryIds := ["student"]
  subscriptionIdDigest := Sample.subscription
  currentPlan := current
  targetPlan := .freeTrial
  planVersion := 3
  periodEnd := Sample.periodEnd

def key : TransitionKey := ⟨"parent", .periodEnd, Sample.subscription⟩

/-- What the stored transition says. -/
def stored (t : Table Key Row) : Option (Sha256 × TransitionStatus × ℤ) :=
  (t.row key.key).map fun row => (row.transitionIdentity, row.status, row.planVersion)

theorem of_stored {t : Table Key Row} {row : TransitionRow} {x : Sha256 × TransitionStatus × ℤ}
    (h : stored t = some x) (hrow : t.row key.key = some row) :
    (row.transitionIdentity, row.status, row.planVersion) = x := by
  rw [stored, hrow] at h
  exact Option.some.inj h

/-- The beneficiary's grant is on this plan. -/
def onPlan (t : Table Key Row) (plan : BillingPlanId) : Bool :=
  (t.row (.account (.grant "parent" "student"))).any fun grant =>
    Relationships.activeGrant (some grant) "parent" "student" = some grant ∧
      grant.subscriptionIdDigest = Sample.subscription ∧ grant.planId = plan

theorem onPlan_ending {t : Table Key Row} {plan : BillingPlanId} (h : onPlan t plan = true)
    (beneficiary : String) (hmem : beneficiary ∈ ["student"]) : (ending plan).OnPlan t beneficiary := by
  obtain rfl := List.mem_singleton.mp hmem
  obtain ⟨grant, hgrant, hmet⟩ := (Option.any_eq_true _ _).mp h
  exact ⟨grant, hgrant, of_decide_eq_true hmet⟩

end LoweringSample

/-- While the first lowering is only scheduled, the second one replaces it. -/
theorem lowered_again :
    Lowers LoweringSample.sampleEnv (LoweringSample.ending .teacherSupported) ["student"]
      LoweringSample.scheduled.table := by
  have hstored : LoweringSample.stored LoweringSample.scheduled.table =
      some (.ofDigit 'a' isLowerHex_a, .scheduled, 2) := by decide +kernel
  have hgrant : (LoweringSample.scheduled.table.row (.account (.grant "parent" "student"))).all
      (fun grant => grant.planVersion < 3 ∧ (LoweringSample.scheduled.table.row
        (.grantHistory "parent" "student" grant.grantVersion)).isNone) = true := by decide +kernel
  refine (lowered_iff LoweringSample.start_periodEnds LoweringSample.scheduled_reachable
    (by decide +kernel) (fun previous hprevious => ?_)
    (LoweringSample.onPlan_ending (by decide +kernel))).mpr
    ⟨fun previous hprevious => ?_, fun beneficiary hmem grant hrow => ?_⟩
  · have h := LoweringSample.of_stored hstored hprevious
    simp only [Prod.mk.injEq] at h
    rw [h.2.2]
    decide
  · have h := LoweringSample.of_stored hstored hprevious
    simp only [Prod.mk.injEq] at h
    rw [ScheduleRequest.MayReplace, h.1, h.2.1]
    decide
  · obtain rfl := List.mem_singleton.mp hmem
    rw [show (LoweringSample.ending .teacherSupported).parentId = "parent" from rfl] at hrow
    rw [hrow, Option.all_some] at hgrant
    obtain ⟨holder, hretained⟩ := of_decide_eq_true hgrant
    exact ⟨holder, Option.isNone_iff_eq_none.mp hretained⟩

/-- Once the first lowering is applied, the second one is refused. -/
theorem not_lowered_again :
    ¬ ∀ (s : LoweringSample.Run) (r : ScheduleRequest) (beneficiaries : List String),
      Reachable (service LoweringSample.sampleEnv .strongReads) Sample.start s →
        r.checked = .ok beneficiaries →
        (∀ previous, s.table.row r.key.key = some previous → previous.planVersion < r.planVersion) →
        (∀ beneficiary ∈ beneficiaries, r.OnPlan s.table beneficiary) →
          Lowers LoweringSample.sampleEnv r beneficiaries s.table := by
  intro h
  have hstored : LoweringSample.stored LoweringSample.lowered.table =
      some (.ofDigit 'a' isLowerHex_a, .applied, 2) := by decide +kernel
  obtain ⟨version, u, hscheduled, -⟩ := (h LoweringSample.lowered (LoweringSample.ending .student)
    ["student"] (LoweringSample.solo_reachable LoweringSample.scheduled_reachable) (by decide +kernel)
    (fun previous hprevious => by
      have hversion := LoweringSample.of_stored hstored hprevious
      simp only [Prod.mk.injEq] at hversion
      rw [hversion.2.2]
      decide)
    (LoweringSample.onPlan_ending (by decide +kernel))).scheduled
  have hanswer : (((schedulePeriodEndTransition LoweringSample.sampleEnv
      (LoweringSample.ending .student)).alone LoweringSample.lowered.table).1.map
        PaidTransitionResult.disposition).toOption = some .conflict := by decide +kernel
  rw [hscheduled] at hanswer
  cases hanswer

end Stoa.PaidEntitlement
