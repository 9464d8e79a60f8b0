import Stoa.Store.Runs
import Stoa.Store.Solo
import Stoa.Verification.RateLimit.Counting

/-! # Admission is capped and happens once

The calls under interference, and what holds of every run. -/

namespace Stoa.RateLimit

open RowStore

/-! ## What every call may rely on -/

/-- Counters only grow, and receipts stay as they are. -/
structure Keeps (t t' : Table Key Row) : Prop where
  counter : ∀ o k p, Newer (fun row : CounterRow => row.count.getD 0)
    (t.row (.counter o k p)) (t'.row (.counter o k p))
  operation : ∀ o k x row, t.row (.operation o k x) = some row →
    t'.row (.operation o k x) = some row

theorem Keeps.refl (t : Table Key Row) : Keeps t t where
  counter := fun _ _ _ => Newer.refl _ _
  operation := fun _ _ _ _ h => h

theorem Keeps.trans {s t u : Table Key Row} (hst : Keeps s t) (htu : Keeps t u) : Keeps s u where
  counter := fun o k p => (hst.counter o k p).trans (htu.counter o k p)
  operation := fun o k x row h => htu.operation o k x row (hst.operation o k x row h)

theorem FenceDrift.keeps {t t' : Table Key Row} (h : FenceDrift t t') : Keeps t t' where
  counter := fun o k p => by
    rw [h (.counter o k p) (by simp)]
    exact Newer.refl _ _
  operation := fun o k x row hrow => by rw [h (.operation o k x) (by simp), hrow]

theorem Admission.Commits.keeps {v : Admission} {t t' : Table Key Row} (h : v.Commits t t') :
    Keeps t t' := by
  cases h with
  | mk generation state absent stored below =>
    refine ⟨fun o k p => ?_, fun o k x row hrow => ?_⟩
    · by_cases hk : Key.counter o k p = .counter v.owner v.kind v.period
      · obtain ⟨rfl, rfl, rfl⟩ := Key.counter.inj hk
        rw [Table.row_set_self]
        obtain ⟨hcount, -, -⟩ := counterState_eq_some stored
        cases hrow : t.row (.counter v.owner v.kind v.period) with
        | none => trivial
        | some row =>
            rw [hrow] at hcount
            exact .inr (by simpa [nextCounter, ← hcount] using Int.lt_succ _)
      · rw [Table.row_set_of_ne _ _ hk, Table.row_set_of_ne _ _ (by simp)]
        exact Newer.refl _ _
    · have hk : Key.operation o k x ≠ .operation v.owner v.kind v.operationId := by
        intro hk
        obtain ⟨rfl, rfl, rfl⟩ := Key.operation.inj hk
        simp [absent] at hrow
      rw [Table.row_set_of_ne _ _ (by simp), Table.row_set_of_ne _ _ hk]
      exact hrow

def contract (faults : Faults) : Contract (service faults) where
  Inv := Admissions
  Rely := Keeps
  refl := Keeps.refl
  trans := Keeps.trans
  Move := Request.Commits
  move_inv := fun h ⟨_, _, hc⟩ => hc.admissions h
  move_rely := fun _ ⟨_, _, hc⟩ => hc.keeps
  drift_inv := fun h hd => h.drift hd
  drift_rely := fun _ hd => hd.keeps

/-- The condition on the count holds only on the counter that was read. -/
theorem counter_stored {t t' : Table Key Row} {o : String} {k : RateKind} {p : String}
    {state : Admission.CounterState}
    (hread : Admission.counterState (some (t.row (.counter o k p))) = some state)
    (hl : Admissions t) (hl' : Admissions t') (hkeeps : Keeps t t')
    (hcondition : Admission.counterCondition state (t'.row (.counter o k p)) = true) :
    t'.row (.counter o k p) = t.row (.counter o k p) := by
  obtain ⟨hcount, -, hexists, -⟩ := counterState_eq_some hread
  have hnewer := hkeeps.counter o k p
  cases hrow : t.row (.counter o k p) with
  | none =>
      cases hrow' : t'.row (.counter o k p) with
      | none => rfl
      | some row' =>
          obtain ⟨n, e, hn, -⟩ := hl'.counters o k p row' hrow'
          simp [Admission.counterCondition, hexists, hrow, hrow', hn] at hcondition
  | some row =>
      obtain ⟨n, e, hn, -⟩ := hl.counters o k p row hrow
      rw [hrow] at hnewer
      obtain ⟨row', hrow'⟩ := hnewer.exists_some
      rw [hrow'] at hnewer ⊢
      have hcount' : row'.count = some state.count := by
        simpa [Admission.counterCondition, hexists, hrow, hrow', hn] using hcondition
      rw [hnewer.eq_of_version (by simp [hcount', ← hcount, hrow])]

/-! ## A call -/

/-- The receipt that a stored operation stands for. -/
def OperationRow.receipt (row : OperationRow) : CounterReceipt where
  quotaPeriod := row.quotaPeriod
  counterKey := "USAGE#" ++ row.ownerId ++ "/" ++ row.kind.upper ++ "#" ++ row.quotaPeriod
  counterValue := row.counterValueAfter
  limit := row.limit
  expiresAt := row.receiptExpiresAt
  operationId := row.operationId
  admissionStatus := row.decision

namespace Admission

/-- The stored receipt is of this call's period, and its expiry can be read. -/
def Readable (v : Admission) (row : OperationRow) : Prop :=
  row.quotaPeriod = v.period ∧ 0 ≤ row.receiptExpiresAt

/-- How a stored operation answers a call. -/
theorem classifyOperation_of {v : Admission} {row : OperationRow}
    (h : row.Sound v.owner v.kind v.operationId) :
    (¬ v.Readable row → (v.classifyOperation row).disposition = .retryable) ∧
    (v.Readable row → (v.classifyOperation row).counterReceipt = row.receipt ∧
      (v.classifyOperation row).disposition =
        if row.payloadDigest = v.digest then .replayed else .idempotencyConflict) := by
  have hvalid : v.ReceiptIsInvalid row ↔ ¬ v.Readable row := by
    have hvalue := h.counterValueAfter
    have hlimit := h.limit
    simp only [ReceiptIsInvalid, Readable, h.entityType, h.schemaVersion, h.ownerId, h.kind,
      h.operationId, h.status, h.decision, ne_eq, not_true_eq_false, false_or, not_and_or,
      not_le, hvalue.not_ge, hlimit.not_ge]
  refine ⟨fun hr => ?_, fun hr => ?_⟩
  · simp only [classifyOperation, if_pos (hvalid.mpr hr)]
    rfl
  · have hvalue := h.counterValueAfter
    have hlimit := h.limit
    have hpos : row.limit ≠ 0 := by omega
    simp only [classifyOperation, if_neg (fun hi => hvalid.mp hi hr), storedNonnegativeInt,
      if_pos hvalue.le, if_pos hlimit.le, if_pos hr.2, hpos, if_false, Option.getD_some]
    by_cases hdigest : row.payloadDigest = v.digest
    · simp only [hdigest, ne_eq, not_true_eq_false, if_false, if_true]
      refine ⟨?_, rfl⟩
      simp only [result, RateAdmissionResult.counterReceipt, OperationRow.receipt,
        counterKeyText, h.ownerId, h.kind, h.operationId, hr.1]
    · simp only [hdigest, ne_eq, not_false_eq_true, if_false, if_true]
      refine ⟨?_, rfl⟩
      simp only [result, RateAdmissionResult.counterReceipt, OperationRow.receipt,
        counterKeyText, h.ownerId, h.kind, h.operationId, hr.1]

/-- A call that committed finds its own receipt from then on. -/
def Kept (v : Admission) (own : List (Table Key Row × Table Key Row))
    (t : Table Key Row) : Prop :=
  own ≠ [] → ∃ row, t.row (.operation v.owner v.kind v.operationId) = some row ∧
    row.payloadDigest = v.digest

/-- What a call's answer says about the table. -/
structure Outcome (v : Admission) (answer : Answer)
    (own : List (Table Key Row × Table Key Row)) (t : Table Key Row) : Prop where
  kept : v.Kept own t
  admitted : ∀ a, answer = .ok a → a.disposition = .admitted → ∃ p ∈ own, v.Commits p.1 p.2
  answered : ∀ a, answer = .ok a → a.disposition = .admitted ∨ a.disposition = .replayed →
    ∃ row, t.row (.operation v.owner v.kind v.operationId) = some row ∧
      row.payloadDigest = v.digest ∧ row.quotaPeriod = v.period ∧
      a.counterReceipt = row.receipt

variable {v : Admission} {own : List (Table Key Row × Table Key Row)} {t t' : Table Key Row}

theorem Kept.keeps (h : v.Kept own t) (hk : Keeps t t') : v.Kept own t' := by
  intro hown
  obtain ⟨row, hrow, hdigest⟩ := h hown
  exact ⟨row, hk.operation _ _ _ row hrow, hdigest⟩

theorem Outcome.later {answer : Answer} (h : v.Outcome answer own t) (hk : Keeps t t') :
    v.Outcome answer own t' where
  kept := h.kept.keeps hk
  admitted := h.admitted
  answered := by
    intro a ha hd
    obtain ⟨row, hrow, hrest⟩ := h.answered a ha hd
    exact ⟨row, hk.operation _ _ _ row hrow, hrest⟩

/-- An answer that neither admits nor replays says nothing about the table. -/
theorem Outcome.quiet (hk : v.Kept own t) {answer : Answer}
    (h : ∀ a, answer = .ok a → a.disposition ≠ .admitted ∧ a.disposition ≠ .replayed) :
    v.Outcome answer own t where
  kept := hk
  admitted := fun a ha hd => ((h a ha).1 hd).elim
  answered := fun a ha hd => (hd.elim (h a ha).1 (h a ha).2).elim

theorem Outcome.retryable (hk : v.Kept own t) (value expiry : ℤ) :
    v.Outcome (.ok (v.retryable value expiry)) own t := by
  refine .quiet hk fun a ha => ?_
  cases ha
  simp [Admission.retryable, result]

theorem Outcome.classified (hl : Admissions t) (hk : v.Kept own t) {row : OperationRow}
    (hrow : t.row (.operation v.owner v.kind v.operationId) = some row) :
    v.Outcome (.ok (v.classifyOperation row)) own t := by
  obtain ⟨hunreadable, hreadable⟩ := classifyOperation_of (hl.operations _ _ _ row hrow)
  by_cases hr : v.Readable row
  · obtain ⟨hreceipt, hdisposition⟩ := hreadable hr
    by_cases hdigest : row.payloadDigest = v.digest
    · rw [if_pos hdigest] at hdisposition
      refine ⟨hk, fun a ha hd => ?_, fun a ha _ => ?_⟩
      · cases ha
        simp [hdisposition] at hd
      · cases ha
        exact ⟨row, hrow, hdigest, hr.1, hreceipt⟩
    · rw [if_neg hdigest] at hdisposition
      refine .quiet hk fun a ha => ?_
      cases ha
      simp [hdisposition]
  · refine .quiet hk fun a ha => ?_
    cases ha
    simp [hunreadable hr]

/-- What a round makes of a transaction that raised, where the next round is safe. -/
theorem raced_safe (v : Admission) (generation : ℤ) (faults : Faults) (n : ℕ) (state : CounterState)
    (own : List (Table Key Row × Table Key Row)) (t : Table Key Row) (hk : v.Kept own t)
    (hnext : ∀ t, v.Kept own t → (v.rounds generation n state.count state.expiresAt).Safe faults
      (contract faults).toInterference v.Commits v.Outcome own t) :
    (Program.read (.operation v.owner v.kind v.operationId) fun
        | none => .ret (.ok (v.retryable state.count state.expiresAt))
        | some (some raced) => .ret (.ok (v.classifyOperation raced))
        | some none => v.rounds generation n state.count state.expiresAt :
          Program Key Row Answer).Safe faults (contract faults).toInterference v.Commits
            v.Outcome own t := by
  refine Program.safe_read fun t' hr hl => ⟨?_, fun _ => .retryable (hk.keeps hr) _ _⟩
  cases hrow : t'.row (.operation v.owner v.kind v.operationId) with
  | some raced => exact .classified hl (hk.keeps hr) hrow
  | none => exact hnext t' (hk.keeps hr)

theorem rounds_safe (v : Admission) (generation : ℤ) (faults : Faults) (n : ℕ)
    (value expiry : ℤ) (own : List (Table Key Row × Table Key Row)) (t : Table Key Row)
    (hkept : v.Kept own t) :
    (v.rounds generation n value expiry).Safe faults (contract faults).toInterference v.Commits
      v.Outcome own t := by
  induction n generalizing value expiry own t with
  | zero => exact .retryable hkept value expiry
  | succ n ih =>
      refine Program.safe_read fun t₁ hr₁ hl₁ =>
        ⟨?_, fun _ => .retryable (hkept.keeps hr₁) _ _⟩
      have hkept₁ := hkept.keeps hr₁
      cases hrow : t₁.row (.operation v.owner v.kind v.operationId) with
      | some existing => exact .classified hl₁ hkept₁ hrow
      | none =>
        refine Program.safe_read fun t₂ hr₂ hl₂ =>
          ⟨?_, fun _ => .retryable (hkept₁.keeps hr₂) _ _⟩
        have hkept₂ := hkept₁.keeps hr₂
        cases hstate : counterState (some (t₂.row (.counter v.owner v.kind v.period))) with
        | none => exact .retryable hkept₂ _ _
        | some state =>
          dsimp only
          split
          · refine .quiet hkept₂ fun a ha => ?_
            cases ha
            simp [result]
          · rename_i hlimit
            refine Program.safe_transact
              (fun t₃ hr₃ hl₃ => v.raced_safe generation faults n state own t₃ (hkept₂.keeps hr₃)
                fun t hk => ih _ _ own t hk)
              fun t₃ hr₃ hl₃ hadmits => ?_
            have habsent : t₃.row (.operation v.owner v.kind v.operationId) = none := by
              simpa [Write.putNew, Write.put] using hadmits.2
                (.putNew (.operation v.owner v.kind v.operationId)
                  (v.operation generation state)) (by simp [operations])
            have hcounter := counter_stored hstate hl₂ hl₃ hr₃
              (hadmits.2 (.update (.counter v.owner v.kind v.period)
                (v.nextCounter generation state) (counterCondition state))
                (by simp [operations]))
            have hcommits : v.Commits t₃ (t₃.apply (v.operations generation state)) := by
              rw [apply_operations]
              exact .mk generation state habsent (by rw [hcounter, hstate]) (not_le.mp hlimit)
            have hstored : (t₃.apply (v.operations generation state)).row
                (.operation v.owner v.kind v.operationId) =
                  some (v.operation generation state) := by
              rw [apply_operations, Table.row_set_of_ne _ _ (by simp), Table.row_set_self]
            have hkept₄ : v.Kept ((t₃, t₃.apply (v.operations generation state)) :: own)
                (t₃.apply (v.operations generation state)) := fun _ => ⟨_, hstored, rfl⟩
            refine ⟨hcommits, ?_, v.raced_safe generation faults n state _ _ hkept₄ fun t hk => ih _ _ _ t hk⟩
            refine ⟨hkept₄, fun a ha hd => ⟨_, List.mem_cons_self .., hcommits⟩, fun a ha hd => ?_⟩
            cases ha
            exact ⟨_, hstored, rfl, rfl, rfl⟩

theorem run_safe (v : Admission) (faults : Faults) (t : Table Key Row) :
    v.run.Safe faults (contract faults).toInterference v.Commits v.Outcome [] t := by
  have hkept : ∀ t, v.Kept [] t := fun t h => absurd rfl h
  refine Program.safe_read fun t₁ _ hl₁ => ⟨?_, fun _ => .retryable (hkept t₁) _ _⟩
  cases hrow : t₁.row (.operation v.owner v.kind v.operationId) with
  | some existing => exact .classified hl₁ (hkept t₁) hrow
  | none =>
    refine Program.safe_read fun t₂ _ hl₂ => ⟨?_, fun _ => .retryable (hkept t₂) _ _⟩
    cases hstate : counterState (some (t₂.row (.counter v.owner v.kind v.period))) with
    | none => exact .retryable (hkept t₂) _ _
    | some state =>
      dsimp only
      split
      · split
        · exact .retryable (hkept t₂) _ _
        · exact v.rounds_safe _ faults 3 _ _ [] t₂ (hkept t₂)
      · refine Program.safe_read fun t₃ _ _ => ⟨?_, fun _ => .quiet (hkept t₃) (by simp)⟩
        dsimp only
        split
        · exact .retryable (hkept t₃) _ _
        · exact v.rounds_safe _ faults 3 _ _ [] t₃ (hkept t₃)

end Admission

/-! ## The service -/

section

-- Safety is computed along the program, and must stop at the checks.
attribute [local irreducible] Request.checked

def Request.Owes (r : Request) : Post Key Row Admission.Answer := fun answer own t =>
  ∀ v, r.checked = .ok v → v.Outcome answer own t

theorem checkAndRecordOperation_safe_of {faults : Faults} {r : Request} {t : Table Key Row}
    {Q : Post Key Row Admission.Answer}
    (h : ∀ v, r.checked = .ok v →
      v.run.Safe faults (contract faults).toInterference v.Commits Q [] t)
    (herror : ∀ failure, r.checked = .error failure → Q (.error failure) [] t) :
    (checkAndRecordOperation r).Safe faults (contract faults).toInterference r.Commits Q [] t := by
  unfold checkAndRecordOperation
  cases hr : r.checked with
  | error failure => exact herror failure hr
  | ok v => exact (h v hr).mono (fun _ _ _ hc => ⟨v, hr, hc⟩) fun _ _ _ hq => hq

theorem checkAndRecordOperation_safe (faults : Faults) (r : Request) (t : Table Key Row) :
    (checkAndRecordOperation r).Safe faults (contract faults).toInterference r.Commits
      r.Owes [] t := by
  refine checkAndRecordOperation_safe_of (fun v hv => ?_) fun f hf v hv => by simp [hf] at hv
  refine (v.run_safe faults t).mono (fun _ _ _ hc => hc) fun a own t ha v' hv' => ?_
  cases hv.symm.trans hv'
  exact ha

theorem sound {faults : Faults} {t : Table Key Row} {s : State Key Row Request Admission.Answer}
    (hfresh : Fresh t) (h : Reachable (service faults) t s) :
    Sound (contract faults) (fun _ => Request.Owes) s :=
  Reachable.sound h hfresh.admissions fun c u _ => checkAndRecordOperation_safe faults c u

/-- A call started where its operation is stored is answered from the receipt. -/
theorem Admission.run_replays {v : Admission} {row : OperationRow} {t u : Table Key Row}
    (hrow : t.row (.operation v.owner v.kind v.operationId) = some row) (hkeeps : Keeps t u) :
    v.run.Safe .strongReads (contract .strongReads).toInterference v.Commits
      (fun a own _ => own = [] ∧ a = .ok (v.classifyOperation row)) [] u := by
  refine Program.safe_read fun t₁ hr₁ _ => ⟨?_, fun hf => hf.elim⟩
  rw [(hkeeps.trans hr₁).operation _ _ _ row hrow]
  exact ⟨rfl, rfl⟩

/-- What a call started on a table that follows `t` is answered, if its operation
is stored in `t`. -/
def Request.Replays (r : Request) (t : Table Key Row) : Post Key Row Admission.Answer :=
  fun answer own _ => ∀ v, r.checked = .ok v → ∀ row,
    t.row (.operation v.owner v.kind v.operationId) = some row →
      own = [] ∧ answer = .ok (v.classifyOperation row)

theorem checkAndRecordOperation_replays (r : Request) {t u : Table Key Row}
    (hkeeps : Keeps t u) :
    (checkAndRecordOperation r).Safe .strongReads (contract .strongReads).toInterference
      r.Commits (r.Replays t) [] u := by
  refine checkAndRecordOperation_safe_of (fun v hv => ?_) fun f hf v hv => by simp [hf] at hv
  cases hrow : t.row (.operation v.owner v.kind v.operationId) with
  | none =>
      refine (v.run_safe _ u).mono (fun _ _ _ hc => hc) fun a own _ _ v' hv' row' hrow' => ?_
      cases hv.symm.trans hv'
      simp [hrow] at hrow'
  | some row =>
      refine (Admission.run_replays hrow hkeeps).mono (fun _ _ _ hc => hc) ?_
      intro a own _ ha v' hv' row' hrow'
      cases hv.symm.trans hv'
      cases hrow.symm.trans hrow'
      exact ha

/-- What the receipts of `s` say about the calls that returned so far. -/
structure AdmittedOnce (s : State Key Row Request Admission.Answer) : Prop where
  /-- The counter is the number of receipts. -/
  counted : ∀ owner kind period,
    counted s.table owner kind period = s.table.total (receiptOf owner kind period)
  /-- An operation is charged once. -/
  charged : ∀ e ∈ s.history, ∀ e' ∈ s.history, ∀ v v' : Admission, e.call.checked = .ok v →
    e'.call.checked = .ok v' → v.operationKey = v'.operationKey → e = e'
  /-- A charge leaves the counter at most at the call's own limit. -/
  capped : ∀ e ∈ s.history, ∀ v, e.call.checked = .ok v →
    RateLimit.counted e.after v.owner v.kind v.period ≤ v.limit
  /-- An admitted call made its charge, and left the counter at most at its limit. -/
  admitted : ∀ r ∈ s.returned, ∀ v a, r.call.checked = .ok v → r.result = .ok a →
    a.disposition = .admitted → ∃ e ∈ s.history, e.id = r.id ∧ v.Commits e.before e.after ∧
      RateLimit.counted e.after v.owner v.kind v.period ≤ v.limit
  /-- Admissions and replays carry the stored receipt. -/
  answered : ∀ r ∈ s.returned, ∀ v a, r.call.checked = .ok v → r.result = .ok a →
    a.disposition = .admitted ∨ a.disposition = .replayed →
    ∃ row, s.table.row (.operation v.owner v.kind v.operationId) = some row ∧
      row.payloadDigest = v.digest ∧ row.quotaPeriod = v.period ∧ a.counterReceipt = row.receipt

theorem admittedOnce {s : State Key Row Request Admission.Answer}
    (h : Sound (contract .strongReads) (fun _ => Request.Owes) s) : AdmittedOnce s where
  counted := h.inv.counted
  charged := by
    intro e he e' he' v v' hv hv' hkey
    -- The receipt is absent before the charge and stays stored after it.
    let P : Table Key Row → Table Key Row → Prop := fun t u =>
      t.row (.operation v.owner v.kind v.operationId) = none ∧
        u.row (.operation v.owner v.kind v.operationId) ≠ none
    obtain ⟨_, ⟨w, hw, hcommit⟩, -⟩ := h.history e he
    obtain ⟨_, ⟨w', hw', hcommit'⟩, -⟩ := h.history e' he'
    cases hv.symm.trans hw
    cases hv'.symm.trans hw'
    have hcharge' := hcommit'.charges
    obtain ⟨howner, hkind, hid⟩ := Key.operation.inj hkey
    rw [← howner, ← hkind, ← hid] at hcharge'
    refine h.commit_unique (P := P) (fun d _ t u hd hrely hp => ?_) he he' hcommit.charges hcharge'
    obtain ⟨row, hrow⟩ := Option.ne_none_iff_exists'.mp hd.2
    simp [P, hrely.operation _ _ _ row hrow] at hp
  capped := by
    intro e he v hv
    obtain ⟨_, ⟨w, hw, hcommit⟩, -⟩ := h.history e he
    cases hv.symm.trans hw
    exact hcommit.capped
  admitted := by
    intro r hr v a hv ha hd
    obtain ⟨hq, -⟩ := h.returned r hr
    obtain ⟨p, hp, hcommit⟩ := (hq v hv).admitted a ha hd
    obtain ⟨e, he, hid, rfl⟩ := State.mem_commits.mp hp
    exact ⟨e, he, hid, hcommit, hcommit.capped⟩
  answered := by
    intro r hr v a hv ha hd
    obtain ⟨hq, -, -, -, hrely⟩ := h.returned r hr
    exact ((hq v hv).later hrely).answered a ha hd

/-- Admission is capped and happens once. A call started once its operation is
stored commits nothing and is answered from the receipt: with the receipt itself
when the period is the receipt's and its expiry can be read, which it can unless
the clock of the call that was charged was more than two days before the epoch. -/
theorem rate_admitted_once {t : Table Key Row} {s s' : State Key Row Request Admission.Answer}
    (hfresh : Fresh t) (h : Reachable (service .strongReads) t s)
    (hrun : Steps (service .strongReads) s s') :
    AdmittedOnce s' ∧
    ∀ r ∈ s'.returned, s.next ≤ r.id → ∀ v row, r.call.checked = .ok v →
      s.table.row (.operation v.owner v.kind v.operationId) = some row →
      s'.commits r.id = [] ∧ ∃ a, r.result = .ok a ∧
        (row.quotaPeriod = v.period → 0 ≤ row.receiptExpiresAt →
          a.counterReceipt = row.receipt ∧ a.disposition =
            if row.payloadDigest = v.digest then .replayed else .idempotencyConflict) ∧
        (¬ (row.quotaPeriod = v.period ∧ 0 ≤ row.receiptExpiresAt) →
          a.disposition = .retryable) ∧
        (0 ≤ epochSeconds row.createdAt + OPERATION_TTL_SECONDS → 0 ≤ row.receiptExpiresAt) := by
  have hs := sound hfresh h
  have hs' := sound hfresh (h.trans hrun)
  refine ⟨admittedOnce hs', fun r hr hid v row hv hrow => ?_⟩
  have hreplays := hs.later hrun (P := fun c => c.Replays s.table)
    (fun c u _ hkeeps => checkAndRecordOperation_replays c hkeeps) r hr hid
  obtain ⟨hown, hresult⟩ := hreplays v hv row hrow
  have hstored := hs.inv.operations _ _ _ row hrow
  obtain ⟨hunreadable, hreadable⟩ := Admission.classifyOperation_of hstored
  refine ⟨hown, _, hresult, fun hp he => hreadable ⟨hp, he⟩, hunreadable, fun hclock => ?_⟩
  rcases hstored.receiptExpiresAt with hexpiry | hexpiry
  · exact hexpiry
  · rw [hexpiry, hstored.expiresAt]
    exact hclock

end

/-! ## A receipt of the day before -/

theorem sha256Digest_ofList {l : List Char} {field : String} (hstrip : strip l = l)
    (hdigest : IsSha256 (String.ofList l)) : sha256Digest (String.ofList l) field = .ok ⟨String.ofList l, hdigest⟩ := by
  have hne : String.ofList l ≠ "" := by
    rintro h
    rw [h] at hdigest
    exact absurd hdigest (by decide)
  have htext : strippedText (String.ofList l) field = .ok (String.ofList l) := by
    simp only [strippedText, String.toList_ofList, hstrip, if_neg hne]
  unfold sha256Digest
  rw [htext]
  exact dif_pos hdigest

namespace Sample

def request (now : Instant) : Request where
  ownerId := "student"
  kind := "chat"
  operationId := String.ofList (List.replicate 64 '7')
  payloadDigest := String.ofList (List.replicate 64 'a')
  limit := 5
  quotaPeriod := none
  accountFenceGeneration := some 1
  now := now

def start : Table Key Row := Table.empty.set (.accountFence "student") (some ⟨"active", some 1⟩)

theorem start_fresh : Fresh start := by
  intro k hk
  rw [start, Table.row_set_of_ne _ _ (hk "student"), Table.row_empty]

/-- The state after one admission, on 2026-03-26. -/
def charged : State Key Row Request Admission.Answer :=
  (State.initial start).solo (service .strongReads) (request 1774567890000000) []

theorem charged_reachable : Reachable (service .strongReads) start charged :=
  State.solo_steps trivial trivial trivial []

/-- The same request again, on the next day. -/
def repeated : State Key Row Request Admission.Answer :=
  charged.solo (service .strongReads) (request 1774654390000000) []

theorem repeated_steps : Steps (service .strongReads) charged repeated :=
  State.solo_steps trivial trivial trivial []

def admission (period : String) (now : Instant) : Admission where
  owner := "student"
  kind := .chat
  operationId := .ofDigit '7' isLowerHex_7
  digest := .ofDigit 'a' isLowerHex_a
  limit := 5
  period := period
  accountFenceGeneration := some 1
  now := now
  limit_pos := by decide

theorem request_checked {period : String} {now : Instant} (hdate : utcDate now = period)
    (hperiod : (strippedText period "quota_period").toOption = some period) :
    (request now).checked = .ok (admission period now) := by
  have howner : strippedText "student" "owner_id" = .ok "student" := rfl
  have hkind : rateKind "chat" = .ok .chat := rfl
  have hid : sha256Digest (String.ofList (List.replicate 64 '7')) "operation_id" = .ok _ :=
    sha256Digest_ofList (by decide) (isSha256_replicate '7' isLowerHex_7)
  have hdigest : sha256Digest (String.ofList (List.replicate 64 'a')) "payload_digest" = .ok _ :=
    sha256Digest_ofList (by decide) (isSha256_replicate 'a' isLowerHex_a)
  have hperiod : strippedText period "quota_period" = .ok period := by
    cases hp : strippedText period "quota_period" with
    | error e => simp [hp, Except.toOption] at hperiod
    | ok text => simpa [hp, Except.toOption] using hperiod
  simp only [Request.checked, request, howner, hkind, hid, hdigest, hdate, hperiod]
  rfl

theorem solo_checked {r : Request} {v : Admission} (h : r.checked = .ok v)
    (s : State Key Row Request Admission.Answer) :
    s.solo (service .strongReads) r [] = s.open_.drive s.next r v.run [] := by
  have hbody : (service .strongReads).body r = v.run := by
    unfold service checkAndRecordOperation
    dsimp only
    rw [h]
  rw [State.solo, hbody]

theorem charged_eq : charged = State.drive 0 (request 1774567890000000)
    (admission "2026-03-26" 1774567890000000).run [] (State.initial start).open_ := by
  have hdate : utcDate 1774567890000000 = "2026-03-26" := by decide
  exact solo_checked (request_checked hdate (by decide)) (State.initial start)

theorem repeated_eq : repeated = charged.open_.drive charged.next (request 1774654390000000)
    (admission "2026-03-27" 1774654390000000).run [] := by
  have hdate : utcDate 1774654390000000 = "2026-03-27" := by decide
  exact solo_checked (request_checked hdate (by decide)) charged

end Sample

/-- The same operation and payload is not replayed on the next day. -/
theorem next_day_retryable :
    Reachable (service .strongReads) Sample.start Sample.repeated ∧
    Sample.repeated.returned.map (fun r => (r.call.operationId = (Sample.request 0).operationId ∧
      r.call.payloadDigest = (Sample.request 0).payloadDigest : Bool)) = [true, true] ∧
    (Sample.repeated.returned.map fun r =>
      (r.id, r.result.toOption.map RateAdmissionResult.disposition)) =
        [(1, some .retryable), (0, some .admitted)] := by
  refine ⟨Sample.charged_reachable.trans Sample.repeated_steps, ?_⟩
  rw [Sample.repeated_eq, Sample.charged_eq]
  exact ⟨rfl, rfl⟩

theorem rate_admitted_once_sample :
    AdmittedOnce Sample.repeated ∧ ∀ r ∈ Sample.repeated.returned, Sample.charged.next ≤ r.id →
      ∀ v row, r.call.checked = .ok v →
        Sample.charged.table.row (.operation v.owner v.kind v.operationId) = some row →
          Sample.repeated.commits r.id = [] :=
  have h := rate_admitted_once Sample.start_fresh Sample.charged_reachable Sample.repeated_steps
  ⟨h.1, fun r hr hid v row hv hrow => (h.2 r hr hid v row hv hrow).1⟩

end Stoa.RateLimit
