import Stoa.Store.Runs
import Stoa.Store.Solo
import Stoa.Verification.TeacherSupport.Changes

/-! # Cases are conserved

The calls under interference, and what holds of every run. -/

namespace Stoa.TeacherSupport

open RowStore Relationships

variable {env : Env}

def contract (env : Env) (faults : Faults) : Contract (service env faults) where
  Inv := Cases env
  Rely := Keeps
  refl := Keeps.refl
  trans := Keeps.trans
  Move := fun _ => Change env
  move_inv := fun h hc => hc.cases h
  move_rely := fun _ hc => hc.keeps
  drift_inv := fun h hd => h.agree fun k hk => hd k hk.isOwn
  drift_rely := fun _ hd => .of_agree fun k hk => hd k hk.isOwn

/-! ## Transactions -/

/-- The callers' own writes are not seen in the rows of the service. -/
theorem Persist.apply_operations (persist : Persist) (t : Table Key Row)
    (ops : List (Write Key Row)) :
    (t.apply (persist.operations ops)).AgreesOn Key.IsOwn (t.apply ops) := by
  have hbefore : (t.apply persist.before).AgreesOn Key.IsOwn t :=
    .apply_outside t fun w hw => persist.foreign w (List.mem_append_left _ hw)
  have hafter : (((t.apply persist.before).apply ops).apply persist.after).AgreesOn Key.IsOwn
      ((t.apply persist.before).apply ops) :=
    .apply_outside _ fun w hw => persist.foreign w (List.mem_append_right _ hw)
  rw [operations, Table.apply_append, Table.apply_append]
  exact hafter.trans (hbefore.apply ops)

theorem Persist.mem_operations (persist : Persist) {ops : List (Write Key Row)}
    {w : Write Key Row} (h : w ∈ ops) : w ∈ persist.operations ops := by
  simp [operations, h]

/-- What an admission is conditioned on it only checks. -/
theorem grantConditionOperations_checks {scope : ResolvedScope}
    {conditions : List (Write Key Row)}
    (h : grantConditionOperations scope = .ok conditions) :
    ∀ w ∈ conditions, w.action = id := by
  unfold grantConditionOperations at h
  split at h
  · cases h
    simp [Write.check]
  · obtain ⟨_, _, h⟩ := bind_eq_ok.mp h
    obtain ⟨_, _, h⟩ := bind_eq_ok.mp h
    obtain ⟨_, _, h⟩ := bind_eq_ok.mp h
    obtain ⟨_, _, h⟩ := bind_eq_ok.mp h
    cases h
    simp [Write.check]

/-- Where the conditions hold, the limit of the scope is the one in force. -/
theorem inForce_of_conditions {beneficiary : Text} {scope : ResolvedScope}
    {conditions : List (Write Key Row)} {t : Table Key Row} (hof : scope.Of env beneficiary)
    (h : grantConditionOperations scope = .ok conditions)
    (hadmits : ∀ w ∈ conditions, w.condition (t.row w.key) = true) :
    InForce env t beneficiary scope.supportScopeId scope.limit := by
  unfold grantConditionOperations at h
  cases hof with
  | assigned profileVersion raised resolved =>
      obtain ⟨hb, hsource, hscope, hlimit, hpos⟩ := assignedScope_eq_some resolved
      rw [hsource] at h
      cases h
      have hcondition := hadmits (.check (.assigned scope.beneficiary)
        (assignedCondition scope (raised.map (·.stateVersion)))) (by simp)
      rw [hb] at hcondition
      have hfigure := assignedWeeklyCases_of_condition hlimit hpos hcondition
      rw [hscope, ← hfigure]
      exact .assigned
  | paid parent grant resolved =>
      obtain ⟨_, _, budget, _, _, rfl⟩ := paidScope_eq_some.mp resolved
      dsimp only [grantScope] at h
      obtain ⟨_, _, h⟩ := bind_eq_ok.mp h
      obtain ⟨_, _, h⟩ := bind_eq_ok.mp h
      obtain ⟨_, _, h⟩ := bind_eq_ok.mp h
      obtain ⟨_, _, h⟩ := bind_eq_ok.mp h
      cases h
      have hcondition : grantCondition (grantScope env beneficiary parent grant budget) parent
          (t.row (.account (.grant parent beneficiary.val))) = true :=
        hadmits (.check (.account (.grant parent beneficiary.val))
          (grantCondition (grantScope env beneficiary parent grant budget) parent)) (by
            simp [grantScope])
      cases hstored : t.row (.account (.grant parent beneficiary.val)) with
      | none => simp [hstored, grantCondition] at hcondition
      | some stored =>
          rw [hstored] at hcondition
          obtain ⟨scope', hscope', hid, hlimit⟩ := paidScope_congr resolved hcondition
          rw [← hid, ← hlimit]
          exact .paid parent stored scope' hstored hscope'

/-! ## Admitting -/

/-- What `AdmitCase.plan` decides when it decides to write. -/
structure AdmitCase.Planned (env : Env) (v : AdmitCase) (week : WeekFields)
    (scope : ResolvedScope) (counter : Option (CaseCounter scope.supportScopeId week))
    (plan : AdmitCase.Plan) : Prop where
  receipt : plan.receipt = v.receipt env week scope (previousCount counter .admittedCases + 1)
  below : previousCount counter .admittedCases < scope.limit
  written : ∃ fields, write CASES scope.supportScopeId.val week counter
    [(.admittedCases, previousCount counter .admittedCases + 1)] (some fields) v.observed =
      .ok plan.counter
  conditions : grantConditionOperations scope = .ok plan.conditions

theorem AdmitCase.planned {v : AdmitCase} {week : WeekFields} {scope : ResolvedScope}
    {counter : Option (CaseCounter scope.supportScopeId week)} {plan : AdmitCase.Plan}
    (h : v.plan env week scope counter = .ok plan) : v.Planned env week scope counter plan := by
  simp only [AdmitCase.plan] at h
  split at h
  · cases h
  rename_i hbelow
  split at h
  · cases h
  · cases h
  · rename_i hwrite hconditions
    cases h
    exact ⟨rfl, not_le.mp hbelow, ⟨_, hwrite⟩, hconditions⟩

theorem readCounter_eq_ok {scope : ResolvedScope} {week : WeekFields}
    {stored : Option (CounterRow CaseField CaseFields)}
    {counter : Option (CaseCounter scope.supportScopeId week)}
    (h : readCounter scope week (some stored) = .ok counter) :
    stored = counter.map (·.item) := by
  unfold readCounter at h
  split at h
  · cases h
  · rename_i hread
    cases h
    simpa using readBack_eq_ok hread
  · rename_i hread
    split at h
    · cases h
    split at h
    · cases h
    cases h
    simpa using readBack_eq_ok hread

/-- A transaction that commits admits the case. -/
theorem AdmitCase.admitted {v : AdmitCase} {week : WeekFields} {scope : ResolvedScope}
    {counter : Option (CaseCounter scope.supportScopeId week)} {plan : AdmitCase.Plan}
    {t t' : Table Key Row} (hof : scope.Of env v.beneficiary)
    (hplan : v.plan env week scope counter = .ok plan)
    (hread : t.row (.counter scope.supportScopeId week.identity) = counter.map (·.item))
    (hkeeps : Keeps t t') (hadmits : t'.Admits (v.operations env week scope plan)) :
    Change env t' (t'.apply (v.operations env week scope plan)) := by
  obtain ⟨hreceipt, hbelow, ⟨fields, hwrite⟩, hconditions⟩ := AdmitCase.planned hplan
  have hwritten := write_written hwrite
  have habsent : t'.row (.receipt (env.caseIdentity v.kind v.caseId)) = none := by
    simpa [Write.putNew, Write.put] using hadmits.2
      (.putNew (.receipt (env.caseIdentity v.kind v.caseId)) plan.receipt)
      (v.persist.mem_operations (by simp))
  have hcondition := hadmits.2 (.put (.counter scope.supportScopeId week.identity)
    plan.counter.item plan.counter.condition) (v.persist.mem_operations (by simp))
  have hnewer := hkeeps.counter scope.supportScopeId week.identity
  rw [hread] at hnewer
  have hstored : t'.row (.counter scope.supportScopeId week.identity) = counter.map (·.item) :=
    write_condition _ hwrite hnewer hcondition
  have hprevious : previousCount counter .admittedCases =
      admittedCases t' scope.supportScopeId week.identity := by
    rw [admittedCases, hstored]
    cases counter <;> rfl
  have hcount : plan.counter.item.counts .admittedCases =
      previousCount counter .admittedCases + 1 := by
    rw [hwritten.counts]
    rfl
  have hforce := inForce_of_conditions hof hconditions fun w hw =>
    hadmits.2 w (v.persist.mem_operations (List.mem_append_left _ hw))
  refine .admitted plan.receipt plan.counter.item ?_ ?_ ?_ ?_ ?_ ?_ ?_
  · rw [hreceipt]
    exact habsent
  · rw [hreceipt]
    rfl
  · rw [hcount, hprevious, hreceipt]
    rfl
  · rw [hreceipt]
    change Newer _ (t'.row (.counter scope.supportScopeId week.identity)) _
    rw [hstored]
    cases counter with
    | none => trivial
    | some c =>
        refine .inr ?_
        change c.item.stateVersion < plan.counter.item.stateVersion
        rw [hwritten.version]
        exact Int.lt_succ _
  · rw [hcount, hreceipt]
    exact hbelow
  · rw [hreceipt]
    exact hforce
  · intro k hk
    rw [AdmitCase.operations, v.persist.apply_operations t' _ k hk.isOwn, Table.apply_append,
      Table.apply_checks _ (grantConditionOperations_checks hconditions), writeCase, hreceipt]
    rfl

theorem AdmitCase.attempt_safe (v : AdmitCase) (week : WeekFields) (faults : Faults)
    (own : List (Table Key Row × Table Key Row)) (t : Table Key Row) :
    (v.attempt env week).Safe faults (contract env faults).toInterference (Change env)
      (Post.orLost (fun _ _ _ => True) fun _ _ => True) own t := by
  -- The attempt, once it has resolved a scope.
  have hin : ∀ (scope : ResolvedScope) u, scope.Of env v.beneficiary →
      (v.attemptIn env week scope).Safe faults (contract env faults).toInterference (Change env)
        (Post.orLost (fun _ _ _ => True) fun _ _ => True) own u := by
    intro scope u hof
    refine Program.safe_read fun t₁ _ _ => ⟨?_, fun _ => trivial⟩
    cases t₁.row (.receipt (env.caseIdentity v.kind v.caseId)) with
    | some existing => trivial
    | none =>
      refine Program.safe_read fun t₂ _ _ => ⟨?_, fun _ => trivial⟩
      cases hcounter : readCounter scope week
          (some (t₂.row (.counter scope.supportScopeId week.identity))) with
      | error failure => trivial
      | ok counter =>
        dsimp only
        cases hplan : v.plan env week scope counter with
        | error early => trivial
        | ok plan =>
          refine Program.safe_transact (fun _ _ _ => trivial) fun t₃ hr₃ _ hadmits =>
            ⟨AdmitCase.admitted hof hplan (readCounter_eq_ok hcounter) hr₃ hadmits, ?_, trivial⟩
          dsimp only
          split <;> trivial
  refine (findPaidScope_finds env v.beneficiary).safe_run accounts _ fun found u hfound _ => ?_
  rcases found with failure | _ | ⟨student, _ | scope⟩
  · cases failure <;> trivial
  · trivial
  · dsimp only
    split
    · trivial
    · split
      · trivial
      · refine Program.safe_read fun t₁ _ _ => ⟨?_, fun _ => trivial⟩
        dsimp only
        cases hscope : assignedScope env v.beneficiary _ (t₁.row (.assigned v.beneficiary)) with
        | error failure => cases failure <;> trivial
        | ok found =>
          cases found with
          | none => trivial
          | some scope => exact hin scope t₁ (.assigned _ _ hscope)
  · exact hin scope u (hfound _ rfl student scope rfl)

theorem AdmitCase.run_safe (v : AdmitCase) (faults : Faults) (t : Table Key Row) :
    (v.run env).Safe faults (contract env faults).toInterference (Change env)
      (fun _ _ _ => True) [] t := by
  refine Program.safe_read fun t₁ _ _ => ⟨?_, fun _ => trivial⟩
  cases t₁.row (.receipt (env.caseIdentity v.kind v.caseId)) with
  | some existing => trivial
  | none =>
    dsimp only
    split
    · trivial
    · exact Program.safe_retry (fun _ _ => True)
        (fun own u _ => v.attempt_safe _ faults own u) (fun _ _ _ => trivial) _ _ _ trivial

/-! ## Giving back -/

theorem RefundCase.planned {v : RefundCase} {receipt : ReceiptRow} {week : WeekFields}
    {stored : Option (CounterRow CaseField CaseFields)} {plan : RefundCase.Plan}
    (h : v.plan receipt week (some stored) = .ok plan) :
    ∃ counter : CaseCounter receipt.supportScopeId week, stored = some counter.item ∧
      plan.week = week ∧ plan.receipt = receipt.refund v.observed v.reason ∧
      write CASES receipt.supportScopeId.val week (some counter)
        [(.admittedCases, counter.item.counts .admittedCases - 1)] none v.observed =
          .ok plan.counter := by
  unfold RefundCase.plan at h
  split at h
  · cases h
  · cases h
  · rename_i counter hread
    dsimp only at h
    split at h
    · cases h
    split at h
    · cases h
    rename_i hwrite
    cases h
    exact ⟨counter, by simpa using readBack_eq_ok hread, rfl, rfl, hwrite⟩

theorem RefundCase.receiptWeek_eq_ok {receipt : ReceiptRow} {week : ZurichWeek env.zone}
    (h : RefundCase.receiptWeek env receipt = .ok week) : week.identity = receipt.weekIdentity := by
  unfold RefundCase.receiptWeek at h
  obtain ⟨admission, hadmission, h⟩ := bind_eq_ok.mp h
  obtain ⟨_, _, h⟩ := bind_eq_ok.mp h
  obtain ⟨found, _, h⟩ := bind_eq_ok.mp h
  have hidentity : admission.weekIdentity = receipt.weekIdentity := by
    unfold admissionFromItem at hadmission
    split at hadmission <;> [skip; split at hadmission <;> [skip; split at hadmission]] <;>
      cases hadmission
    rfl
  split at h
  · cases h
  · rename_i hsame
    cases h
    simp only [not_or, not_not, ne_eq] at hsame
    exact hsame.1.trans hidentity

/-- A transaction that commits gives the case back to the week of its receipt. -/
theorem RefundCase.gives_back {v : RefundCase} {receipt : ReceiptRow} {week : WeekFields}
    {plan : RefundCase.Plan} {t u t' : Table Key Row}
    (hstored : t.row (.receipt (env.caseIdentity v.kind v.caseId)) = some receipt)
    (hkind : receipt.caseKind = v.kind) (hcase : receipt.supportCaseId = v.caseId)
    (hunrefunded : receipt.refundedAt = none) (hweek : week.identity = receipt.weekIdentity)
    (hplan : v.plan receipt week (some (u.row (.counter receipt.supportScopeId week.identity))) =
      .ok plan)
    (htu : Keeps t u) (hut : Keeps u t') (hadmits : t'.Admits (v.operations env receipt plan)) :
    Change env t' (t'.apply (v.operations env receipt plan)) := by
  obtain ⟨counter, hcounter, rfl, hrefund, hwrite⟩ := RefundCase.planned hplan
  have hwritten := write_written hwrite
  -- The receipt that is refunded is the receipt that was read.
  have hreceipt : t'.row (.receipt (env.caseIdentity v.kind v.caseId)) = some receipt := by
    have hcondition := hadmits.2 (.put (.receipt (env.caseIdentity v.kind v.caseId)) plan.receipt
      (RefundCase.receiptCondition receipt)) (v.persist.mem_operations (by simp))
    have hnewer := (htu.trans hut).receipt (env.caseIdentity v.kind v.caseId)
    rw [hstored] at hnewer
    refine hnewer.eq_of_condition ?_
    cases hrow : t'.row (.receipt (env.caseIdentity v.kind v.caseId)) with
    | none => simp [Write.put, hrow, RefundCase.receiptCondition] at hcondition
    | some row =>
        have hboth : row.stateVersion = receipt.stateVersion ∧ row.refundedAt = none := by
          simpa [Write.put, hrow, RefundCase.receiptCondition] using hcondition
        simpa using hboth.1
  have hcondition := hadmits.2 (.put (.counter receipt.supportScopeId plan.week.identity)
    plan.counter.item plan.counter.condition) (v.persist.mem_operations (by simp))
  have hnewer := hut.counter receipt.supportScopeId plan.week.identity
  rw [hcounter] at hnewer
  have hcount : t'.row (.counter receipt.supportScopeId plan.week.identity) = some counter.item :=
    write_condition _ hwrite hnewer hcondition
  refine .refunded receipt v.observed v.reason plan.counter.item ?_ hunrefunded ?_ ?_ ?_
  · rw [hkind, hcase]
    exact hreceipt
  · rw [← hweek, admittedCases, hcount, hwritten.counts]
    rfl
  · rw [← hweek, hcount]
    refine .inr ?_
    change counter.item.stateVersion < plan.counter.item.stateVersion
    rw [hwritten.version]
    exact Int.lt_succ _
  · intro k hk
    rw [RefundCase.operations, v.persist.apply_operations t' _ k hk.isOwn, writeCase, hrefund,
      hweek, ← hkind, ← hcase]
    rfl

theorem RefundCase.run_safe (v : RefundCase) (faults : Faults) (t : Table Key Row) :
    (v.run env).Safe faults (contract env faults).toInterference (Change env)
      (fun _ _ _ => True) [] t := by
  -- Handing over what was seen changes no row of the service.
  have hseen : ∀ (condition : Option ReceiptRow → Bool) (next : Bool → Program Key Row RefundAnswer)
      u, (∀ ok own u, (next ok).Safe faults (contract env faults).toInterference (Change env)
        (fun _ _ _ => True) own u) →
      (Program.transact (v.seen env condition) next).Safe faults
        (contract env faults).toInterference (Change env) (fun _ _ _ => True) [] u := by
    intro condition next u hnext
    refine Program.safe_transact (fun _ _ _ => hnext _ _ _) fun u' _ _ _ =>
      ⟨.nothing fun k hk => ?_, hnext _ _ _, hnext _ _ _⟩
    rw [RefundCase.seen, v.persist.apply_operations u' _ k hk.isOwn,
      Table.apply_checks _ (by simp [Write.check])]
  refine Program.safe_read fun t₁ _ _ => ⟨?_, fun _ => trivial⟩
  cases hstored : t₁.row (.receipt (env.caseIdentity v.kind v.caseId)) with
  | none => exact hseen _ _ _ fun ok _ _ => by cases ok <;> trivial
  | some receipt =>
    dsimp only
    split
    · trivial
    rename_i hsame
    simp only [not_or, not_not, ne_eq] at hsame
    split
    · exact hseen _ _ _ fun ok _ _ => by cases ok <;> trivial
    rename_i hunrefunded
    split
    · trivial
    rename_i week hweek
    refine Program.safe_read fun t₂ hr₂ _ => ⟨?_, fun _ => ?_⟩
    · cases hplan : v.plan receipt week.toWeekFields
          (some (t₂.row (.counter receipt.supportScopeId week.identity))) with
      | error early => trivial
      | ok plan =>
        exact Program.safe_transact (fun _ _ _ => trivial) fun t₃ hr₃ _ hadmits =>
          ⟨RefundCase.gives_back hstored hsame.2.1 hsame.2.2 (by simpa using hunrefunded)
            (RefundCase.receiptWeek_eq_ok hweek) hplan hr₂ hr₃ hadmits, trivial, trivial⟩
    · cases hplan : v.plan receipt week.toWeekFields none with
      | error early => trivial
      | ok plan => simp [RefundCase.plan, readBack] at hplan

theorem AssignCases.run_safe (v : AssignCases) (faults : Faults) (t : Table Key Row) :
    v.run.Safe faults (contract env faults).toInterference (Change env)
      (fun _ _ _ => True) [] t := by
  refine Program.safe_read fun t₁ _ _ => ⟨?_, fun _ => trivial⟩
  refine Program.safe_transact (fun _ _ _ => trivial) fun t₂ _ _ _ =>
    ⟨.nothing fun k hk => ?_, trivial, trivial⟩
  refine Table.row_apply_of_notMem _ _ k fun w hw he => ?_
  simp only [List.mem_singleton] at hw
  subst hw
  rw [he] at hk
  exact hk

/-! ## The service -/

theorem Call.body_safe (faults : Faults) (c : Call) (t : Table Key Row) :
    (c.body env).Safe faults (contract env faults).toInterference (Change env)
      (fun _ _ _ => True) [] t := by
  cases c with
  | admitCase r =>
      refine (Program.safe_bind _ _ _ _).mpr ?_
      unfold admitTeacherSupportCase
      split
      · trivial
      · exact (AdmitCase.run_safe _ faults t).mono (fun _ _ _ h => h) fun _ _ _ _ => trivial
  | refundCase r =>
      refine (Program.safe_bind _ _ _ _).mpr ?_
      unfold refundTeacherSupportCase
      split
      · trivial
      · exact (RefundCase.run_safe _ faults t).mono (fun _ _ _ h => h) fun _ _ _ _ => trivial
  | assignCases r =>
      refine (Program.safe_bind _ _ _ _).mpr ?_
      unfold setAssignedWeeklyCases
      split
      · trivial
      · exact (AssignCases.run_safe _ faults t).mono (fun _ _ _ h => h) fun _ _ _ _ => trivial

theorem sound {faults : Faults} {t : Table Key Row} {s : State Key Row Call Result}
    (hfresh : Fresh t) (h : Reachable (service env faults) t s) :
    Sound (contract env faults) (fun _ _ _ _ _ => True) s :=
  Reachable.sound h hfresh.cases fun c u _ => c.body_safe faults u

/-- The receipt stored under `x` is refunded. -/
def Refunds (x : Sha256) (t t' : Table Key Row) : Prop :=
  (∃ row, t.row (.receipt x) = some row ∧ row.refundedAt = none) ∧
    ∃ row, t'.row (.receipt x) = some row ∧ row.refundedAt ≠ none

/-- Cases are conserved. A scope's counter for a week is the number of its
receipts that are not refunded; a case of a kind has at most one receipt; every
commit spends one case under the limit in force, gives one back to the scope and
week of its receipt, or does neither; and a receipt is refunded at most once. -/
theorem teacher_support_cases_conserved {faults : Faults} {t : Table Key Row}
    {s : State Key Row Call Result} (hfresh : Fresh t)
    (h : Reachable (service env faults) t s) :
    (∀ scope week, admittedCases s.table scope week = s.table.total (openCase scope week)) ∧
    (∀ x y row row', s.table.row (.receipt x) = some row → s.table.row (.receipt y) = some row' →
      row.caseKind = row'.caseKind → row.supportCaseId = row'.supportCaseId → x = y) ∧
    (∀ e ∈ s.history, Change env e.before e.after) ∧
    ∀ x, ∀ e ∈ s.history, ∀ e' ∈ s.history, Refunds x e.before e.after →
      Refunds x e'.before e'.after → e = e' := by
  have hs := sound hfresh h
  refine ⟨hs.inv.counted, ?_, fun e he => (hs.history e he).2.1, ?_⟩
  · intro x y row row' hrow hrow' hkind hcase
    rw [← hs.inv.identity x row hrow, ← hs.inv.identity y row' hrow', hkind, hcase]
  · intro x e he e' he' hrefund hrefund'
    refine hs.commit_unique (P := Refunds x) (fun d _ u _ hd hrely hnext => ?_) he he' hrefund
      hrefund'
    obtain ⟨-, row, hrow, hrefunded⟩ := hd
    obtain ⟨⟨row', hrow', hopen⟩, -⟩ := hnext
    cases (hrely.refunded x row hrow hrefunded).symm.trans hrow'
    exact hrefunded hopen

/-! ## One case of each kind -/

namespace Sample

/-- Zurich as it is in winter, and digests that tell a few texts apart. -/
def sampleEnv : Env where
  zone := ⟨fun _ => 3600000000, fun wall => wall - 3600000000⟩
  domainDigest := fun domain values =>
    if domain = "stoa.teacher-support.case.v1" then
      if values.head? = some "question" then .ofDigit 'a' isLowerHex_a else .ofDigit 'b' isLowerHex_b
    else if domain = "stoa.teacher-support.scope.v1" then .ofDigit 'c' isLowerHex_c else .ofDigit 'd' isLowerHex_d

theorem student_isRequiredText : IsRequiredText 200 "student" := by decide

def student : Text := ⟨"student", student_isRequiredText⟩

def case : Text := ⟨"case", by decide⟩

theorem nothing_own : ∀ w ∈ ([] : List (Write Key Row)) ++ [], ¬ w.key.IsOwn := by
  simp

def admitCase (kind : String) : Call := .admitCase {
  supportCaseId := "case"
  caseKind := kind
  beneficiaryId := "student"
  persistCase := ⟨[], [], nothing_own⟩
  observedAt := 1774300000000000 }

def start : Table Key Row := Table.empty.set (.account (.profile "student"))
  (some ⟨"student", "student", some "active", none, some 1⟩)

theorem start_fresh : Fresh start := by
  intro k hk
  rw [start, Table.row_set_of_ne _ _ (by rintro rfl; exact hk), Table.row_empty]

/-- The state after the question and the conversation of one case are admitted. -/
def both : State Key Row Call Result :=
  ((State.initial start).solo (service sampleEnv .strongReads) (admitCase "question") []).solo
    (service sampleEnv .strongReads) (admitCase "conversation") []

theorem both_reachable : Reachable (service sampleEnv .strongReads) start both :=
  (State.solo_steps trivial trivial trivial []).trans (State.solo_steps trivial trivial trivial [])

end Sample

/-- One case id has two receipts, one for each kind of case. -/
theorem two_receipts_of_one_case :
    Reachable (service Sample.sampleEnv .strongReads) Sample.start Sample.both ∧
    (Sample.both.table.row (.receipt (.ofDigit 'a' isLowerHex_a))).map ReceiptRow.supportCaseId =
      some Sample.case ∧
    (Sample.both.table.row (.receipt (.ofDigit 'b' isLowerHex_b))).map ReceiptRow.supportCaseId =
      some Sample.case ∧
    Sha256.ofDigit 'a' isLowerHex_a ≠ Sha256.ofDigit 'b' isLowerHex_b :=
  ⟨Sample.both_reachable, by decide, by decide, by decide⟩

theorem teacher_support_cases_conserved_sample :
    Sample.both.table.total (openCase (.ofDigit 'c' isLowerHex_c) "2026-W13") = 2 ∧
      ∀ e ∈ Sample.both.history, Change Sample.sampleEnv e.before e.after := by
  have h := teacher_support_cases_conserved Sample.start_fresh Sample.both_reachable
  refine ⟨?_, h.2.2.1⟩
  rw [← h.1]
  decide

end Stoa.TeacherSupport
