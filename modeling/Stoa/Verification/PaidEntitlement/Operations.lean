import Stoa.Model.PaidGrants
import Stoa.Store.Runs

/-! # What the paid grants commit

Each operation is safe under any interference, if what it submits on rows that it
has seen is allowed. -/

namespace Stoa.PaidEntitlement

open RowStore Billing

variable {env : Env} {F : Faults} {I : Interference Key Row}
  {G : Table Key Row → Table Key Row → Prop} {t : Table Key Row}
  {own : List (Table Key Row × Table Key Row)}

/-! ## Results -/

/-- What a disposition says of the status of a transition. -/
structure PaidTransitionDisposition.Says (disposition : PaidTransitionDisposition)
    (status : TransitionStatus) : Prop where
  resolved : status = .applied ∨ status = .cleared
  applied : disposition = .applied → status = .applied
  cleared : disposition = .graceCleared → status = .cleared

/-- The transition of the identity is stored, as the disposition says. -/
def Resolved (k : TransitionKey) (identity : Sha256) (t : Table Key Row)
    (result : PaidTransitionResult) : Prop :=
  ∃ row, result.transition = some row ∧ t.row k.key = some row ∧
    row.transitionIdentity = identity ∧ result.disposition.Says row.status

/-- What an answer about a transition says: one that is applied or cleared is stored so. -/
def Answers (k : TransitionKey) (identity : Sha256) :
    Post Key Row (Except Failure PaidTransitionResult) :=
  fun outcome _ t => ∀ result, outcome = .ok result →
    (result.disposition = .applied ∨ result.disposition = .graceCleared ∨
      result.disposition = .alreadyApplied) → Resolved k identity t result

/-- A call that owes nothing but its commits. -/
abbrev Quiet (α : Type) : Post Key Row α := fun _ _ _ => True

theorem Answers.error {k : TransitionKey} {identity : Sha256} {failure : Failure} :
    Answers k identity (.error failure) own t := by
  rintro result ⟨⟩

/-- The other answers promise nothing. -/
theorem Answers.of_other {k : TransitionKey} {identity : Sha256}
    {disposition : PaidTransitionDisposition} {transition : Option TransitionRow}
    (h : disposition ≠ .applied ∧ disposition ≠ .graceCleared ∧ disposition ≠ .alreadyApplied) :
    Answers k identity (.ok ⟨disposition, transition⟩) own t := by
  rintro result ⟨⟩ hdisposition
  simp_all

theorem Answers.of_row {k : TransitionKey} {identity : Sha256}
    {disposition : PaidTransitionDisposition} {row : TransitionRow}
    (hrow : t.row k.key = some row) (hidentity : row.transitionIdentity = identity)
    (htruth : disposition.Says row.status) :
    Answers k identity (.ok ⟨disposition, some row⟩) own t := by
  rintro result ⟨⟩ _
  exact ⟨row, rfl, hrow, hidentity, htruth⟩

theorem transitionItem_eq_some {item : Option TransitionRow} {row : TransitionRow}
    (h : transitionItem item = some row) : item = some row :=
  (Option.filter_eq_some_iff.mp h).1

/-! ## Persisting -/

/-- A transition put is allowed on the row that was seen. -/
def PutAllowed (G : Table Key Row → Table Key Row → Prop) (I : Interference Key Row)
    (k : TransitionKey) (item : TransitionRow) (previous : Option TransitionRow) : Prop :=
  ∀ u, I.Inv u → (∀ row, previous = some row → I.Seen k.key (some row) u) →
    u.Admits [transitionPut k item previous] → G u (u.set k.key (some item))

theorem transitionPut_apply (k : TransitionKey) (item : TransitionRow)
    (previous : Option TransitionRow) (u : Table Key Row) :
    u.apply [transitionPut k item previous] = u.set k.key (some item) := by
  cases previous <;> rfl

/-- What the read after the put makes of the row. -/
theorem refreshed_safe {k : TransitionKey} {item : TransitionRow}
    {Q : Post Key Row (Except Failure PaidTransitionResult)}
    (hreplayed : ∀ own (u : Table Key Row) row, u.row k.key = some row → unchanged item row = true →
      Q (.ok ⟨.alreadyApplied, some row⟩) own u)
    (hretryable : ∀ own u, Q (.ok ⟨.retryable, none⟩) own u)
    (herror : ∀ own u, Q (.error .tableError) own u) (u : Table Key Row) :
    (Program.read k.key fun
        | none => .ret (.error .tableError)
        | some stored =>
          match (transitionItem stored).filter fun replayed => unchanged item replayed with
          | some replayed => answer .alreadyApplied (some replayed)
          | none => answer .retryable none :
      RepoCall PaidTransitionResult).Safe F I G Q own u := by
  refine Program.safe_read fun v _ _ => ⟨?_, fun _ => herror _ _⟩
  dsimp only
  split
  · rename_i replayed hreplay
    obtain ⟨hitem, hmet⟩ := Option.filter_eq_some_iff.mp hreplay
    exact hreplayed _ _ replayed (transitionItem_eq_some hitem) hmet
  · exact hretryable _ _

theorem persistTransition_safe {k : TransitionKey} {item : TransitionRow}
    {previous : Option TransitionRow} {success : PaidTransitionDisposition}
    {Q : Post Key Row (Except Failure PaidTransitionResult)}
    (hseen : ∀ row, previous = some row → I.Seen k.key (some row) t) (hallowed : PutAllowed G I k item previous)
    (hsuccess : ∀ own (u : Table Key Row), Q (.ok ⟨success, some item⟩) own (u.set k.key (some item)))
    (hreplayed : ∀ own (u : Table Key Row) row, u.row k.key = some row → unchanged item row = true →
      Q (.ok ⟨.alreadyApplied, some row⟩) own u)
    (hretryable : ∀ own u, Q (.ok ⟨.retryable, none⟩) own u)
    (herror : ∀ own u, Q (.error .tableError) own u) :
    (persistTransition k item previous success).Safe F I G Q own t := by
  refine Program.safe_transact (fun u _ _ => refreshed_safe hreplayed hretryable herror u) fun u hr hinv hadmits => ?_
  rw [transitionPut_apply]
  exact ⟨hallowed u hinv (fun row hrow => (hseen row hrow).rely hr) hadmits, hsuccess _ u,
    refreshed_safe hreplayed hretryable herror _⟩

theorem Quiet.persistTransition_safe {k : TransitionKey} {item : TransitionRow}
    {previous : Option TransitionRow} {success : PaidTransitionDisposition}
    (hseen : ∀ row, previous = some row → I.Seen k.key (some row) t)
    (hallowed : PutAllowed G I k item previous) :
    (persistTransition k item previous success).Safe F I G (Quiet _) own t :=
  PaidEntitlement.persistTransition_safe hseen hallowed (fun _ _ => trivial)
    (fun _ _ _ _ _ => trivial) (fun _ _ => trivial) fun _ _ => trivial

theorem seen_of_transitionItem {k : TransitionKey} {u : Table Key Row} (hinv : I.Inv u)
    {row : TransitionRow} (h : transitionItem (u.row k.key) = some row) :
    I.Seen k.key (some row) u := by
  rw [← transitionItem_eq_some h]
  exact .found hinv

/-! ## Scheduling, grace and recovery -/

/-- What a schedule may write over what it has seen. -/
def ScheduleRequest.Allowed (env : Env) (G : Table Key Row → Table Key Row → Prop)
    (I : Interference Key Row) (r : ScheduleRequest) : Prop :=
  ∀ beneficiaries previous version, r.checked = .ok beneficiaries →
    previous.bind (r.refused env) = none → nextTransitionVersion previous = .ok version →
    PutAllowed G I r.key (r.item env beneficiaries version) previous

theorem schedulePeriodEndTransition_safe {r : ScheduleRequest} (hallowed : r.Allowed env G I) :
    (schedulePeriodEndTransition env r).Safe F I G (Quiet _) own t := by
  unfold schedulePeriodEndTransition
  split
  · trivial
  rename_i beneficiaries hchecked
  refine Program.safe_read fun u _ hinv => ⟨?_, fun _ => trivial⟩
  dsimp only
  split
  · trivial
  rename_i hrefused
  split
  · trivial
  rename_i version hversion
  exact Quiet.persistTransition_safe (fun row hrow => seen_of_transitionItem hinv hrow)
    (hallowed beneficiaries _ version hchecked hrefused hversion)

def GraceRequest.Allowed (env : Env) (G : Table Key Row → Table Key Row → Prop)
    (I : Interference Key Row) (r : GraceRequest) : Prop :=
  ∀ beneficiaries previous version, r.checked = .ok beneficiaries →
    previous.bind r.refused = none → nextTransitionVersion previous = .ok version →
    PutAllowed G I r.key (r.item env beneficiaries version) previous

theorem startRenewalGrace_safe {r : GraceRequest} (hallowed : r.Allowed env G I) :
    (startRenewalGrace env r).Safe F I G (Quiet _) own t := by
  unfold startRenewalGrace
  split
  · trivial
  rename_i beneficiaries hchecked
  refine Program.safe_read fun u _ hinv => ⟨?_, fun _ => trivial⟩
  dsimp only
  split
  · trivial
  rename_i hrefused
  split
  · trivial
  rename_i version hversion
  exact Quiet.persistTransition_safe (fun row hrow => seen_of_transitionItem hinv hrow)
    (hallowed beneficiaries _ version hchecked hrefused hversion)

def ClearRequest.Allowed (G : Table Key Row → Table Key Row → Prop)
    (I : Interference Key Row) (r : ClearRequest) : Prop :=
  ∀ previous version, previous.transitionIdentity = r.transitionIdentity →
    previous.status = .graceStarted → nextTransitionVersion (some previous) = .ok version →
    PutAllowed G I r.key (r.item previous version) (some previous)

theorem clearRenewalGrace_safe {r : ClearRequest} (hallowed : r.Allowed G I) :
    (clearRenewalGrace r).Safe F I G (Answers r.key r.transitionIdentity) own t := by
  unfold clearRenewalGrace
  split
  · exact .error
  refine Program.safe_read fun u _ hinv => ⟨?_, fun _ => .error⟩
  dsimp only
  split
  · exact .of_other (by simp)
  rename_i previous hprevious
  have hrow := transitionItem_eq_some hprevious
  split
  · exact .of_other (by simp)
  rename_i hidentity
  split
  · rename_i hstatus
    exact .of_row hrow (not_not.mp hidentity) ⟨hstatus.symm, by rintro ⟨⟩, by rintro ⟨⟩⟩
  split
  · exact .of_other (by simp)
  rename_i hstarted
  split
  · exact .error
  rename_i version hversion
  refine persistTransition_safe (fun row h => ?_)
    (hallowed previous version (not_not.mp hidentity) (not_not.mp hstarted) hversion)
    (fun own u => .of_row (Table.row_set_self _ _ _) (not_not.mp hidentity)
      ⟨.inr rfl, by rintro ⟨⟩, fun _ => rfl⟩)
    (fun own u row hstored hmet => ?_) (fun own u => .of_other (by simp)) fun own u => .error
  · cases h
    exact seen_of_transitionItem hinv hprevious
  · obtain ⟨hsame, -, hcleared⟩ := of_decide_eq_true hmet
    exact .of_row hstored (hsame.trans (not_not.mp hidentity)) ⟨.inr hcleared, by rintro ⟨⟩, by rintro ⟨⟩⟩

/-! ## Reading grants -/

/-- The grants are those that were seen and accepted, one for each beneficiary. -/
def Accepted (I : Interference Key Row) (parent : String)
    (accept : String → Option Relationships.GrantRow → Option Relationships.GrantRow)
    (beneficiaries : List String) (grants : List Relationships.GrantRow) (t : Table Key Row) :
    Prop :=
  List.Forall₂ (fun beneficiary grant => ∃ item, accept beneficiary item = some grant ∧
    I.Seen (.account (.grant parent beneficiary)) item t) beneficiaries grants

theorem Accepted.rely {parent : String}
    {accept : String → Option Relationships.GrantRow → Option Relationships.GrantRow}
    {beneficiaries : List String} {grants : List Relationships.GrantRow} {u : Table Key Row}
    (h : Accepted I parent accept beneficiaries grants t) (hr : I.Rely t u) :
    Accepted I parent accept beneficiaries grants u :=
  h.imp fun _ _ ⟨item, haccept, hseen⟩ => ⟨item, haccept, hseen.rely hr⟩

/-- What is known of the table stays known while grants are read. -/
theorem readGrants_safe (parent : String)
    (accept : String → Option Relationships.GrantRow → Option Relationships.GrantRow)
    (beneficiaries : List String) {S : Table Key Row → Prop}
    (hS : ∀ u v, S u → I.Rely u v → S v) (h : S t) :
    (readGrants parent accept beneficiaries).Safe F I G (fun outcome _ u => S u ∧
      ∀ grants, outcome = .ok (some grants) → Accepted I parent accept beneficiaries grants u)
      own t := by
  induction beneficiaries generalizing S t with
  | nil =>
      refine ⟨h, ?_⟩
      rintro grants ⟨⟩
      exact .nil
  | cons beneficiary rest ih =>
      refine Program.safe_read fun u hr hinv => ⟨?_, fun _ => ⟨hS _ _ h hr, by rintro _ ⟨⟩⟩⟩
      dsimp only
      split
      · exact ⟨hS _ _ h hr, by rintro _ ⟨⟩⟩
      rename_i grant haccept
      rw [Program.safe_bind]
      let S' : Table Key Row → Prop := fun v => S v ∧
        I.Seen (.account (.grant parent beneficiary)) (u.row _) v
      have hS' : ∀ v w, S' v → I.Rely v w → S' w := fun v w hv hrw =>
        ⟨hS _ _ hv.1 hrw, hv.2.rely hrw⟩
      refine (ih hS' ⟨hS _ _ h hr, .found hinv⟩).mono (fun _ _ _ hg => hg)
        fun outcome own v hread => ?_
      obtain ⟨hv, hgrants⟩ := hread
      cases outcome with
      | error failure => exact ⟨hv.1, by rintro _ ⟨⟩⟩
      | ok found =>
          refine ⟨hv.1, ?_⟩
          cases found with
          | none => rintro _ ⟨⟩
          | some grants =>
              rintro all ⟨⟩
              exact .cons ⟨_, haccept, hv.2⟩ (hgrants grants rfl)

/-! ## Applying -/

def ApplyRequest.Allowed (env : Env) (G : Table Key Row → Table Key Row → Prop)
    (I : Interference Key Row) (r : ApplyRequest) : Prop :=
  ∀ previous beneficiaries grants version,
    previous.transitionIdentity = r.transitionIdentity → previous.status = r.expectedStatus →
    previous.effectiveAt.instant ≤ r.now.instant →
    transitionBeneficiaries previous.beneficiaryIds = .ok beneficiaries →
    nextTransitionVersion (some previous) = .ok version →
    ∀ u, I.Inv u → I.Seen r.key.key (some previous) u →
      Accepted I r.parentId (r.dueGrant previous) beneficiaries grants u →
      u.Admits (r.operations env previous grants version) →
      G u (u.apply (r.operations env previous grants version))

theorem ApplyRequest.row_apply {r : ApplyRequest} {previous : TransitionRow}
    {grants : List Relationships.GrantRow} {version : ℤ} {u : Table Key Row}
    (h : u.Admits (r.operations env previous grants version)) :
    (u.apply (r.operations env previous grants version)).row r.key.key =
      some (r.appliedItem previous version) :=
  Table.row_apply_of_mem u h.1
    (w := transitionPut r.key (r.appliedItem previous version) (some previous))
    (by simp [operations])

theorem ApplyRequest.refresh_safe (r : ApplyRequest) (previous : TransitionRow)
    (u : Table Key Row) :
    (r.refresh previous).Safe F I G (Answers r.key r.transitionIdentity) own u := by
  refine Program.safe_read fun v _ _ => ⟨?_, fun _ => .error⟩
  dsimp only
  split
  · rename_i replayed hreplay
    obtain ⟨hitem, hmet⟩ := Option.filter_eq_some_iff.mp hreplay
    obtain ⟨hidentity, hstatus⟩ := of_decide_eq_true hmet
    exact .of_row (transitionItem_eq_some hitem) hidentity ⟨.inl hstatus, by rintro ⟨⟩, by rintro ⟨⟩⟩
  · exact .of_other (by simp)

theorem applyDuePaidTransition_safe {r : ApplyRequest} (hallowed : r.Allowed env G I) :
    (applyDuePaidTransition env r).Safe F I G (Answers r.key r.transitionIdentity) own t := by
  unfold applyDuePaidTransition
  split
  · exact .error
  refine Program.safe_read fun u _ hinv => ⟨?_, fun _ => .error⟩
  dsimp only
  split
  · exact .of_other (by simp)
  rename_i previous hprevious
  have hrow := transitionItem_eq_some hprevious
  split
  · exact .of_other (by simp)
  rename_i hidentity
  split
  · rename_i hstatus
    exact .of_row hrow (not_not.mp hidentity) ⟨hstatus, by rintro ⟨⟩, by rintro ⟨⟩⟩
  split
  · exact .of_other (by simp)
  rename_i hstatus
  split
  · exact .of_other (by simp)
  split
  · exact .of_other (by simp)
  rename_i hdue
  unfold ApplyRequest.applyDue
  split
  · exact .of_other (by simp)
  · exact .of_other (by simp)
  rename_i beneficiaries _ hbeneficiaries
  rw [Program.safe_bind]
  refine (readGrants_safe r.parentId (r.dueGrant previous) beneficiaries
    (fun _ _ h hr => h.rely hr) (seen_of_transitionItem (k := r.key) hinv hprevious)).mono
    (fun _ _ _ hg => hg) fun outcome own v hread => ?_
  obtain ⟨hseen, hgrants⟩ := hread
  cases outcome with
  | error failure => exact .error
  | ok found =>
      cases found with
      | none => exact .of_other (by simp)
      | some grants =>
          dsimp only
          unfold ApplyRequest.submit
          split
          · exact .error
          rename_i version hversion
          refine Program.safe_transact (fun w _ _ => r.refresh_safe previous w)
            fun w hw hinvw hadmits => ⟨?_, ?_, r.refresh_safe previous _⟩
          · exact hallowed previous beneficiaries grants version (not_not.mp hidentity)
              (not_not.mp hstatus) (not_lt.mp hdue) hbeneficiaries hversion w hinvw
              (hseen.rely hw) ((hgrants grants rfl).rely hw) hadmits
          · exact .of_row (ApplyRequest.row_apply hadmits) (not_not.mp hidentity)
              ⟨.inl rfl, fun _ => rfl, by rintro ⟨⟩⟩

end Stoa.PaidEntitlement
