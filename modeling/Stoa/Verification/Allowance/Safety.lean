import Stoa.Store.Runs
import Stoa.Verification.Allowance.Ledger

/-! # The calls under interference

Whatever the other calls do between two accesses of a call, its commits are
those of `Call.Commits` and its answers tell the truth about the table. -/

namespace Stoa.Allowance

open RowStore

variable {env : Env}

/-! ## What every call may rely on -/

/-- What may become of a stored effect: its reservation stays, and so do its
observation and its finalization once they are there. -/
structure EffectRow.Extends (a b : EffectRow) : Prop where
  reservation : b.toReservedEffect = a.toReservedEffect
  version : a.stateVersion ≤ b.stateVersion
  same : b.stateVersion = a.stateVersion → b = a
  observed : a.observed.isSome → b.observed = a.observed
  finalized : a.finalized.isSome → b.finalized = a.finalized

theorem EffectRow.Extends.refl (a : EffectRow) : a.Extends a :=
  ⟨rfl, le_rfl, fun _ => rfl, fun _ => rfl, fun _ => rfl⟩

theorem EffectRow.Extends.trans {a b c : EffectRow} (hab : a.Extends b) (hbc : b.Extends c) :
    a.Extends c where
  reservation := hbc.reservation.trans hab.reservation
  version := hab.version.trans hbc.version
  same := by
    intro h
    have hab' := hab.version
    have hbc' := hbc.version
    rw [hbc.same (by omega), hab.same (by omega)]
  observed := fun h => (hbc.observed (hab.observed h ▸ h)).trans (hab.observed h)
  finalized := fun h => (hbc.finalized (hab.finalized h ▸ h)).trans (hab.finalized h)

/-- What every commit of the ledger leaves in place. -/
structure Keeps (t t' : Table Key Row) : Prop where
  counter : ∀ b w, Newer (fun row : CounterRow TokenField TokenFields => row.stateVersion)
    (t.row (.counter b w)) (t'.row (.counter b w))
  effect : ∀ b e row, t.row (.effect b e) = some row →
    ∃ row', t'.row (.effect b e) = some row' ∧ row.Extends row'
  evidence : ∀ b x row, t.row (.providerUsage b x) = some row →
    t'.row (.providerUsage b x) = some row

theorem Keeps.refl (t : Table Key Row) : Keeps t t where
  counter := fun _ _ => Newer.refl _ _
  effect := fun _ _ row h => ⟨row, h, .refl row⟩
  evidence := fun _ _ _ h => h

theorem Keeps.trans {s t u : Table Key Row} (hst : Keeps s t) (htu : Keeps t u) : Keeps s u where
  counter := fun b w => (hst.counter b w).trans (htu.counter b w)
  effect := by
    intro b e row h
    obtain ⟨row', h', hext⟩ := hst.effect b e row h
    obtain ⟨row'', h'', hext'⟩ := htu.effect b e row' h'
    exact ⟨row'', h'', hext.trans hext'⟩
  evidence := fun b x row h => htu.evidence b x row (hst.evidence b x row h)

theorem FenceDrift.keeps {t t' : Table Key Row} (h : FenceDrift t t') : Keeps t t' where
  counter := fun b w => by
    rw [h (.counter b w) (by simp)]
    exact Newer.refl _ _
  effect := fun b e row hrow => ⟨row, by rw [h (.effect b e) (by simp), hrow], .refl row⟩
  evidence := fun b x row hrow => by rw [h (.providerUsage b x) (by simp), hrow]

theorem newer_counter {t : Table Key Row} {b : Text} {week : WeekFields}
    (previous : Option (LedgerCounter b week)) {row : CounterRow TokenField TokenFields}
    (hstored : t.row (.counter b week.identity) = previous.map fun c => c.counter.item)
    (hversion : row.stateVersion = previousVersion (previous.map (·.counter)) + 1)
    (b' : Text) (w' : String) :
    Newer (fun row : CounterRow TokenField TokenFields => row.stateVersion)
      (t.row (.counter b' w')) ((t.set (.counter b week.identity) (some row)).row
        (.counter b' w')) := by
  by_cases hk : Key.counter b' w' = .counter b week.identity
  · obtain ⟨rfl, rfl⟩ := Key.counter.inj hk
    rw [Table.row_set_self, hstored]
    cases previous with
    | none => trivial
    | some c =>
        exact .inr (by simpa [hversion, previousVersion] using Int.lt_succ _)
  · rw [Table.row_set_of_ne _ _ hk]
    exact Newer.refl _ _

/-- Effects are kept by a write that extends one of them. -/
theorem keeps_effect {t : Table Key Row} {b : Text} {e : Sha256} {row : EffectRow}
    (h : ∀ old, t.row (.effect b e) = some old → old.Extends row) (b' : Text) (e' : Sha256)
    (old : EffectRow) (hold : t.row (.effect b' e') = some old) :
    ∃ row', (t.set (.effect b e) (some row)).row (.effect b' e') = some row' ∧
      old.Extends row' := by
  by_cases hk : Key.effect b' e' = .effect b e
  · obtain ⟨rfl, rfl⟩ := Key.effect.inj hk
    exact ⟨row, Table.row_set_self .., h old hold⟩
  · exact ⟨old, by rw [Table.row_set_of_ne _ _ hk, hold], .refl old⟩

theorem Reserve.Commits.keeps {v : Reserve env} {t t' : Table Key Row} (h : v.Commits t t') :
    Keeps t t' := by
  cases h with
  | mk generation counter plan absent stored planned =>
    refine ⟨fun b w => ?_, fun b e row hrow => ?_, fun b x row hrow => ?_⟩
    · have hnewer := newer_counter counter stored (write_written planned.written).version b w
      by_cases hk : Key.counter b w = .counter v.beneficiary v.week.identity
      · obtain ⟨rfl, rfl⟩ := Key.counter.inj hk
        rw [Table.row_set_self] at hnewer ⊢
        exact hnewer
      · rw [Table.row_set_of_ne _ _ hk] at hnewer ⊢
        rw [Table.row_set_of_ne _ _ (by simp)]
        exact hnewer
    · rw [Table.row_set_of_ne _ _ (by simp)]
      exact keeps_effect (by simp [absent]) b e row hrow
    · rw [Table.row_set_of_ne _ _ (by simp), Table.row_set_of_ne _ _ (by simp)]
      exact hrow

theorem Usage.Commits.keeps {u : Usage} {t t' : Table Key Row} (hl : Ledger env t)
    (h : u.Commits env t t') : Keeps t t' := by
  cases h with
  | mk current week counter plan effect reserved week_of stored absent planned =>
    have hphase := (hl.effects _ _ _ effect).phase
    simp only [EffectRow.Phase, reserved] at hphase
    have hext : current.Extends plan.effect := by
      rw [planned.effect]
      exact ⟨rfl, Int.le_add_one le_rfl, by simp [Usage.nextEffect],
        by simp [hphase.2.1], by simp [hphase.2.2]⟩
    refine ⟨fun b w => ?_, fun b e row hrow => ?_, fun b x row hrow => ?_⟩
    · have hnewer := newer_counter (some counter) stored
        (write_written planned.written).version b w
      by_cases hk : Key.counter b w = .counter u.beneficiary week.identity
      · obtain ⟨rfl, rfl⟩ := Key.counter.inj hk
        rw [Table.row_set_self] at hnewer ⊢
        exact hnewer
      · rw [Table.row_set_of_ne _ _ hk] at hnewer ⊢
        rw [Table.row_set_of_ne _ _ (by simp), Table.row_set_of_ne _ _ (by simp)]
        exact hnewer
    · rw [Table.row_set_of_ne _ _ (by simp)]
      refine keeps_effect (fun old hold => ?_) b e row ?_
      · rw [Table.row_set_of_ne _ _ (by simp), effect] at hold
        cases hold
        exact hext
      · rw [Table.row_set_of_ne _ _ (by simp)]
        exact hrow
    · rw [Table.row_set_of_ne _ _ (by simp), Table.row_set_of_ne _ _ (by simp)]
      have hk : Key.providerUsage b x ≠
          .providerUsage u.beneficiary (env.evidenceId u.effect) := by
        intro hk
        obtain ⟨rfl, rfl⟩ := Key.providerUsage.inj hk
        simp [absent] at hrow
      rw [Table.row_set_of_ne _ _ hk]
      exact hrow

theorem Completion.Commits.keeps {c : Completion} {t t' : Table Key Row} (hl : Ledger env t)
    (h : c.Commits env t t') : Keeps t t' := by
  cases h with
  | mk current week counter observed item evidence plan effect state week_of stored observed_as
      usage read planned =>
    have hphase := (hl.effects _ _ _ effect).phase
    simp only [EffectRow.Phase, state] at hphase
    have hext : current.Extends plan.effect := by
      rw [planned.effect]
      exact ⟨rfl, Int.le_add_one le_rfl, by simp [Completion.nextEffect],
        fun _ => rfl, by simp [hphase.2.2]⟩
    refine ⟨fun b w => ?_, fun b e row hrow => ?_, fun b x row hrow => ?_⟩
    · have hnewer := newer_counter (some counter) stored
        (write_written planned.written).version b w
      by_cases hk : Key.counter b w = .counter c.beneficiary week.identity
      · obtain ⟨rfl, rfl⟩ := Key.counter.inj hk
        rw [Table.row_set_self] at hnewer ⊢
        exact hnewer
      · rw [Table.row_set_of_ne _ _ hk] at hnewer ⊢
        rw [Table.row_set_of_ne _ _ (by simp)]
        exact hnewer
    · rw [Table.row_set_of_ne _ _ (by simp)]
      refine keeps_effect (fun old hold => ?_) b e row hrow
      rw [effect] at hold
      cases hold
      exact hext
    · rw [Table.row_set_of_ne _ _ (by simp), Table.row_set_of_ne _ _ (by simp)]
      exact hrow

/-- Every commit of the ledger stays inside the rely. -/
theorem Call.Commits.keeps {c : Call env} {t t' : Table Key Row} (hl : Ledger env t)
    (h : c.Commits t t') : Keeps t t' :=
  h.rec_on (fun _ h' => h'.keeps) (fun _ h' => h'.keeps hl) fun _ h' => h'.keeps hl

/-- The contract of the ledger's calls, under any way of failing. -/
def contract (env : Env) (faults : Faults) : Contract (service env faults) where
  Inv := Ledger env
  Rely := Keeps
  refl := Keeps.refl
  trans := Keeps.trans
  Move := Call.Commits
  move_inv := fun h hc => hc.ledger h
  move_rely := fun h hc => hc.keeps h
  drift_inv := fun h hd => h.drift hd
  drift_rely := fun _ hd => hd.keeps

/-- A write condition on the counter that was read holds only on that row. -/
theorem counter_stored {t t' : Table Key Row} {b : Text} {week : WeekFields}
    (previous : Option (LedgerCounter b week)) {counts : List (TokenField × ℤ)}
    {fields : Option TokenFields} {now : Instant} {w : CounterWrite TokenField TokenFields}
    (hread : t.row (.counter b week.identity) = previous.map fun c => c.counter.item)
    (hkeeps : Keeps t t')
    (hwrite : write TOKENS b.val week (previous.map (·.counter)) counts fields now = .ok w)
    (hcondition : w.condition (t'.row (.counter b week.identity)) = true) :
    t'.row (.counter b week.identity) = previous.map fun c => c.counter.item := by
  have hnewer := hkeeps.counter b week.identity
  rw [hread] at hnewer
  have hstored := write_condition (t'.row (.counter b week.identity)) hwrite
    (by simpa [Option.map_map, Function.comp_def] using hnewer) hcondition
  simpa [Option.map_map, Function.comp_def] using hstored

/-- A write condition on an effect holds only on the row that was read. -/
theorem effect_stored {t t' : Table Key Row} {b : Text} {e : Sha256} {current row : EffectRow}
    {state : EffectState} (hread : t.row (.effect b e) = some current) (hkeeps : Keeps t t')
    (hcondition : (putReplace b e row current.stateVersion state).condition
      (t'.row (.effect b e)) = true) : t'.row (.effect b e) = some current := by
  obtain ⟨row', hrow', hext⟩ := hkeeps.effect b e current hread
  rw [hrow'] at hcondition ⊢
  have hversion : row'.stateVersion = current.stateVersion ∧ row'.state = state := by
    simpa [putReplace, Write.put] using hcondition
  rw [hext.same hversion.1]

/-! ## Reserving -/

namespace Reserve

/-- A call that committed finds its own effect from then on. -/
def Kept (v : Reserve env) (own : List (Table Key Row × Table Key Row))
    (t : Table Key Row) : Prop :=
  own ≠ [] → ∃ row, t.row (.effect v.beneficiary v.effect) = some row ∧
    row.reservationPayloadDigest = v.digest

/-- What a reservation call's answer says about the table. -/
structure Outcome (v : Reserve env) (result : Except Failure (ReservationResult env.zone))
    (own : List (Table Key Row × Table Key Row)) (t : Table Key Row) : Prop where
  kept : v.Kept own t
  admitted : ∀ r, result = .ok ⟨.admitted, r⟩ → ∃ p ∈ own,
    p.1.row (.effect v.beneficiary v.effect) = none ∧
      p.2.row (.effect v.beneficiary v.effect) ≠ none
  answered : ∀ d r, result = .ok ⟨d, r⟩ → d = .admitted ∨ d = .replayed →
    ∃ row reservation, t.row (.effect v.beneficiary v.effect) = some row ∧
      row.reservationPayloadDigest = v.digest ∧
      reservationFromEffect env row.toReservedEffect = .ok reservation ∧ r = some reservation

theorem Kept.keeps {v : Reserve env} {own : List (Table Key Row × Table Key Row)}
    {t t' : Table Key Row} (h : v.Kept own t) (hk : Keeps t t') : v.Kept own t' := by
  intro hown
  obtain ⟨row, hrow, hdigest⟩ := h hown
  obtain ⟨row', hrow', hext⟩ := hk.effect _ _ _ hrow
  exact ⟨row', hrow', by rw [hext.reservation, hdigest]⟩

variable {v : Reserve env} {own : List (Table Key Row × Table Key Row)} {t : Table Key Row}

/-- An answer that neither admits nor replays says nothing about the table. -/
theorem Outcome.quiet (hk : v.Kept own t)
    {result : Except Failure (ReservationResult env.zone)}
    (h : ∀ d r, result = .ok ⟨d, r⟩ → d ≠ .admitted ∧ d ≠ .replayed) :
    v.Outcome result own t where
  kept := hk
  admitted := fun r hr => absurd rfl (h _ r hr).1
  answered := fun d r hr hd => (hd.elim (h d r hr).1 (h d r hr).2).elim

theorem Outcome.retryable (hk : v.Kept own t) : v.Outcome (.ok ⟨.retryable, none⟩) own t :=
  .quiet hk fun d r hr => by
    simp only [Except.ok.injEq, ReservationResult.mk.injEq] at hr
    simp [← hr.1]

theorem Outcome.classified (hl : Ledger env t) (hk : v.Kept own t) {row : EffectRow}
    (hrow : t.row (.effect v.beneficiary v.effect) = some row) :
    v.Outcome (.ok (v.classify row)) own t := by
  have hsound := hl.effects _ _ _ hrow
  rw [classify, classifyReservation_of hsound]
  by_cases hdigest : row.reservationPayloadDigest = v.digest
  · rw [if_pos hdigest]
    exact {
      kept := hk
      admitted := fun r hr => by simp at hr
      answered := fun d r hr _ =>
        ⟨row, _, hrow, hdigest, reservationFromEffect_of hsound.readable, by
          simp only [Except.ok.injEq, ReservationResult.mk.injEq] at hr
          exact hr.2.symm⟩ }
  · rw [if_neg hdigest]
    refine .quiet hk fun d r hr => ?_
    simp only [Except.ok.injEq, ReservationResult.mk.injEq] at hr
    simp [← hr.1]

theorem plan_error {generation : Version}
    {counter : Option (LedgerCounter v.beneficiary v.week.toWeekFields)}
    {result : Except Failure (ReservationResult env.zone)}
    (h : v.plan generation counter = .error result) :
    ∀ d r, result = .ok ⟨d, r⟩ → d ≠ .admitted ∧ d ≠ .replayed := by
  rintro d r rfl
  simp only [plan] at h
  repeat' split at h
  all_goals cases h
  all_goals simp

/-- What the last read makes of the table, whether or not the transaction committed. -/
theorem raced_safe (v : Reserve env) (faults : Faults) (own : List (Table Key Row × Table Key Row)) (t : Table Key Row)
    (hk : v.Kept own t) :
    (Program.read (.effect v.beneficiary v.effect) fun
        | none => done ⟨.retryable, none⟩
        | some (some raced) => done (v.classify raced)
        | some none => .ret none : Attempt (ReservationResult env.zone)).Safe faults
          (contract env faults).toInterference v.Commits
          (Post.orLost v.Outcome v.Kept) own t := by
  refine Program.safe_read fun t' hr hl => ⟨?_, fun _ => .retryable (hk.keeps hr)⟩
  cases hrow : t'.row (.effect v.beneficiary v.effect) with
  | some raced => exact .classified hl (hk.keeps hr) hrow
  | none => exact hk.keeps hr

theorem attempt_safe (v : Reserve env) (generation : Version) (faults : Faults)
    (own : List (Table Key Row × Table Key Row)) (t : Table Key Row) (hkept : v.Kept own t) :
    (v.attempt generation).Safe faults (contract env faults).toInterference v.Commits
      (Post.orLost v.Outcome v.Kept) own t := by
  refine Program.safe_read fun t₁ hr₁ hl₁ => ⟨?_, fun _ => .retryable (hkept.keeps hr₁)⟩
  have hkept₁ := hkept.keeps hr₁
  cases hrow : t₁.row (.effect v.beneficiary v.effect) with
  | some existing => exact .classified hl₁ hkept₁ hrow
  | none =>
    refine Program.safe_read fun t₂ hr₂ hl₂ => ⟨?_, fun _ => .retryable (hkept₁.keeps hr₂)⟩
    have hkept₂ := hkept₁.keeps hr₂
    cases hcounter : readCounter v.beneficiary v.week.toWeekFields
      (some (t₂.row (.counter v.beneficiary v.week.identity))) with
    | error message =>
      exact .retryable hkept₂
    | ok counter =>
      dsimp only
      have hread := Option.some.inj (readCounter_eq_ok hcounter)
      cases hplan : v.plan generation counter with
      | error result => exact .quiet hkept₂ (plan_error hplan)
      | ok plan =>
        have hplanned := planned hplan
        refine Program.safe_transact (fun t₃ hr₃ hl₃ => v.raced_safe faults own t₃ (hkept₂.keeps hr₃))
          fun t₃ hr₃ hl₃ hadmits => ?_
        have habsent : t₃.row (.effect v.beneficiary v.effect) = none := by
          simpa [Write.putNew, Write.put] using
            hadmits.2 (.putNew (.effect v.beneficiary v.effect) plan.effect)
              (by simp [operations])
        have hcondition := hadmits.2 (.put (.counter v.beneficiary v.week.identity)
          plan.counter.item plan.counter.condition) (by simp [operations])
        have hcommits : v.Commits t₃ (t₃.apply (v.operations generation plan)) := by
          rw [apply_operations]
          exact .mk generation counter plan habsent
            (counter_stored counter hread hr₃ hplanned.written hcondition) hplanned
        have hl₄ := hcommits.ledger hl₃
        have hstored : (t₃.apply (v.operations generation plan)).row
            (.effect v.beneficiary v.effect) = some plan.effect := by
          rw [apply_operations, Table.row_set_of_ne _ _ (by simp), Table.row_set_self]
        have hdigest : plan.effect.reservationPayloadDigest = v.digest := by
          rw [hplanned.effect]
          rfl
        have hkept₄ : v.Kept ((t₃, t₃.apply (v.operations generation plan)) :: own)
            (t₃.apply (v.operations generation plan)) := fun _ => ⟨_, hstored, hdigest⟩
        refine ⟨hcommits, ?_, v.raced_safe faults _ _ hkept₄⟩
        have hreservation := reservationFromEffect_of hplanned.sound.readable
        simp only [hreservation]
        exact {
          kept := hkept₄
          admitted := fun r _ => ⟨_, List.mem_cons_self .., habsent, by simp [hstored]⟩
          answered := fun d r hr _ => ⟨_, _, hstored, hdigest, hreservation, by
            simp only [Except.ok.injEq, ReservationResult.mk.injEq] at hr
            exact hr.2.symm⟩ }

theorem attempts_safe (v : Reserve env) (generation : ℤ) (faults : Faults)
    (own : List (Table Key Row × Table Key Row)) (t : Table Key Row) (hkept : v.Kept own t) :
    (v.attempts generation).Safe faults (contract env faults).toInterference v.Commits v.Outcome
      own t := by
  unfold attempts
  split
  · exact .retryable hkept
  · exact Program.safe_retry v.Kept (fun own t hk => v.attempt_safe _ faults own t hk) (fun _ _ hk => .retryable hk) _ _ _
      hkept

theorem run_safe (v : Reserve env) (faults : Faults) (t : Table Key Row) :
    v.run.Safe faults (contract env faults).toInterference v.Commits v.Outcome [] t := by
  have hkept : ∀ t, v.Kept [] t := fun t h => absurd rfl h
  unfold run
  split
  · exact .quiet (hkept t) fun d r hr => by
      simp only [Except.ok.injEq, ReservationResult.mk.injEq] at hr
      simp [← hr.1]
  · refine Program.safe_read fun t₁ _ hl₁ => ⟨?_, fun _ => .retryable (hkept t₁)⟩
    cases hrow : t₁.row (.effect v.beneficiary v.effect) with
    | some existing => exact .classified hl₁ (hkept t₁) hrow
    | none =>
      dsimp only
      split
      · exact v.attempts_safe _ faults [] t₁ (hkept t₁)
      · refine Program.safe_read fun t₂ _ _ => ⟨?_, fun _ => .quiet (hkept t₂) (by simp)⟩
        dsimp only
        split
        · exact .retryable (hkept t₂)
        · exact v.attempts_safe _ faults [] t₂ (hkept t₂)

end Reserve

/-! ## Recording usage -/

namespace Usage

/-- A call that committed finds its own evidence from then on. -/
def Kept (env : Env) (u : Usage) (own : List (Table Key Row × Table Key Row))
    (t : Table Key Row) : Prop :=
  own ≠ [] → ∃ row, t.row (.providerUsage u.beneficiary (env.evidenceId u.effect)) = some row ∧
    row.providerPayloadDigest = u.digest env

/-- What a usage call's answer says about the table. -/
structure Outcome (env : Env) (u : Usage) (result : Except Failure ProviderUsageResult)
    (own : List (Table Key Row × Table Key Row)) (t : Table Key Row) : Prop where
  kept : u.Kept env own t
  recorded : ∀ r, result = .ok ⟨.recorded, r⟩ → ∃ p ∈ own,
    p.1.row (.providerUsage u.beneficiary (env.evidenceId u.effect)) = none ∧
      p.2.row (.providerUsage u.beneficiary (env.evidenceId u.effect)) ≠ none
  answered : ∀ d r, result = .ok ⟨d, r⟩ → d = .recorded ∨ d = .replayed →
    ∃ row evidence, t.row (.providerUsage u.beneficiary (env.evidenceId u.effect)) = some row ∧
      row.providerPayloadDigest = u.digest env ∧ evidenceFromItem row = .ok evidence ∧
      r = some evidence

variable {u : Usage} {own : List (Table Key Row × Table Key Row)} {t t' : Table Key Row}

theorem Kept.keeps (h : u.Kept env own t) (hk : Keeps t t') : u.Kept env own t' := by
  intro hown
  obtain ⟨row, hrow, hdigest⟩ := h hown
  exact ⟨row, hk.evidence _ _ _ hrow, hdigest⟩

/-- An answer that neither records nor replays says nothing about the table. -/
theorem Outcome.quiet (hk : u.Kept env own t) {result : Except Failure ProviderUsageResult}
    (h : ∀ d r, result = .ok ⟨d, r⟩ → d ≠ .recorded ∧ d ≠ .replayed) :
    u.Outcome env result own t where
  kept := hk
  recorded := fun r hr => absurd rfl (h _ r hr).1
  answered := fun d r hr hd => (hd.elim (h d r hr).1 (h d r hr).2).elim

theorem Outcome.retryable (hk : u.Kept env own t) :
    u.Outcome env (.ok ⟨.retryable, none⟩) own t :=
  .quiet hk fun d r hr => by
    simp only [Except.ok.injEq, ProviderUsageResult.mk.injEq] at hr
    simp [← hr.1]

theorem Outcome.invalidState (hk : u.Kept env own t) :
    u.Outcome env (.ok ⟨.invalidState, none⟩) own t :=
  .quiet hk fun d r hr => by
    simp only [Except.ok.injEq, ProviderUsageResult.mk.injEq] at hr
    simp [← hr.1]

theorem Outcome.classified (hl : Ledger env t) (hk : u.Kept env own t) {row : EvidenceRow}
    (hrow : t.row (.providerUsage u.beneficiary (env.evidenceId u.effect)) = some row) :
    u.Outcome env (.ok (u.classify env row)) own t := by
  have hsound := hl.evidence _ _ _ hrow
  rw [classify, classifyProviderEvidence_of hsound]
  by_cases hdigest : row.providerPayloadDigest = u.digest env
  · rw [if_pos hdigest]
    exact {
      kept := hk
      recorded := fun r hr => by simp at hr
      answered := fun d r hr _ => ⟨row, _, hrow, hdigest, evidenceFromItem_of hsound, by
        simp only [Except.ok.injEq, ProviderUsageResult.mk.injEq] at hr
        exact hr.2.symm⟩ }
  · rw [if_neg hdigest]
    refine .quiet hk fun d r hr => ?_
    simp only [Except.ok.injEq, ProviderUsageResult.mk.injEq] at hr
    simp [← hr.1]

theorem plan_error {current : EffectRow} {week : WeekFields}
    {counter : LedgerCounter u.beneficiary week} {result : Except Failure ProviderUsageResult}
    (h : u.plan env current week counter = .error result) :
    ∀ d r, result = .ok ⟨d, r⟩ → d ≠ .recorded ∧ d ≠ .replayed := by
  rintro d r rfl
  simp only [plan] at h
  repeat' split at h
  all_goals cases h
  all_goals simp

theorem raced_safe (u : Usage) (faults : Faults) (own : List (Table Key Row × Table Key Row)) (t : Table Key Row)
    (hk : u.Kept env own t) :
    (Program.read (.providerUsage u.beneficiary (env.evidenceId u.effect)) fun
        | none => done ⟨.retryable, none⟩
        | some (some raced) => done (u.classify env raced)
        | some none => .ret none : Attempt ProviderUsageResult).Safe faults
          (contract env faults).toInterference (u.Commits env)
          (Post.orLost (u.Outcome env) (u.Kept env)) own t := by
  refine Program.safe_read fun t' hr hl => ⟨?_, fun _ => .retryable (hk.keeps hr)⟩
  cases hrow : t'.row (.providerUsage u.beneficiary (env.evidenceId u.effect)) with
  | some raced => exact .classified hl (hk.keeps hr) hrow
  | none => exact hk.keeps hr

/-- The observation of a reserved effect, planned from the rows of `t`. -/
theorem observe_safe (u : Usage) (faults : Faults) {current : EffectRow} {week : WeekFields}
    (own : List (Table Key Row × Table Key Row)) (t : Table Key Row) (hkept : u.Kept env own t)
    (hcurrent : t.row (.effect u.beneficiary u.effect) = some current)
    (hstate : current.state = .reserved) (hweek : current.weekIdentity = week.identity) :
    (u.observe env current week).Safe faults (contract env faults).toInterference
      (u.Commits env) (Post.orLost (u.Outcome env) (u.Kept env)) own t := by
  refine Program.safe_read fun t₁ hr₁ hl₁ => ⟨?_, fun _ => .retryable (hkept.keeps hr₁)⟩
  have hkept₁ := hkept.keeps hr₁
  cases hcounter : readCounter u.beneficiary week
    (some (t₁.row (.counter u.beneficiary week.identity))) with
  | error message => exact .retryable hkept₁
  | ok counter =>
    cases counter with
    | none => exact .retryable hkept₁
    | some counter =>
      dsimp only
      have hread := Option.some.inj (readCounter_eq_ok hcounter)
      cases hplan : u.plan env current week counter with
      | error result => exact .quiet hkept₁ (plan_error hplan)
      | ok plan =>
        have hplanned := planned hplan
        refine Program.safe_transact (fun t₂ hr₂ hl₂ => u.raced_safe faults own t₂ (hkept₁.keeps hr₂))
          fun t₂ hr₂ hl₂ hadmits => ?_
        have habsent : t₂.row (.providerUsage u.beneficiary (env.evidenceId u.effect)) = none := by
          simpa [Write.putNew, Write.put] using hadmits.2
            (.putNew (.providerUsage u.beneficiary (env.evidenceId u.effect)) plan.evidence)
            (by simp [operations])
        have hreplaced := hadmits.2 (putReplace u.beneficiary u.effect plan.effect
          current.stateVersion .reserved) (by simp [operations])
        have hcondition := hadmits.2 (.put (.counter u.beneficiary week.identity)
          plan.counter.item plan.counter.condition) (by simp [operations])
        have hcommits : u.Commits env t₂ (t₂.apply (u.operations env current week plan)) := by
          rw [apply_operations]
          exact .mk current week counter plan
            (effect_stored hcurrent (hr₁.trans hr₂) hreplaced) hstate hweek
            (counter_stored (some counter) hread hr₂ hplanned.written hcondition)
            habsent hplanned
        have hl₃ := hcommits.ledger hl₂
        have hstored : (t₂.apply (u.operations env current week plan)).row
            (.providerUsage u.beneficiary (env.evidenceId u.effect)) = some plan.evidence := by
          rw [apply_operations, Table.row_set_of_ne _ _ (by simp),
            Table.row_set_of_ne _ _ (by simp), Table.row_set_self]
        have hdigest : plan.evidence.providerPayloadDigest = u.digest env := by
          rw [hplanned.evidence]
          rfl
        have hkept₃ : u.Kept env ((t₂, t₂.apply (u.operations env current week plan)) :: own)
            (t₂.apply (u.operations env current week plan)) := fun _ => ⟨_, hstored, hdigest⟩
        refine ⟨hcommits, ?_, u.raced_safe faults _ _ hkept₃⟩
        have hevidence := evidenceFromItem_of (hl₃.evidence _ _ _ hstored)
        simp only [hevidence]
        exact {
          kept := hkept₃
          recorded := fun r _ => ⟨_, List.mem_cons_self .., habsent, by simp [hstored]⟩
          answered := fun d r hr _ => ⟨_, _, hstored, hdigest, hevidence, by
            simp only [Except.ok.injEq, ProviderUsageResult.mk.injEq] at hr
            exact hr.2.symm⟩ }

theorem attempt_safe (u : Usage) (faults : Faults)
    (own : List (Table Key Row × Table Key Row)) (t : Table Key Row)
    (hkept : u.Kept env own t) :
    (u.attempt env).Safe faults (contract env faults).toInterference (u.Commits env)
      (Post.orLost (u.Outcome env) (u.Kept env)) own t := by
  refine Program.safe_read fun t₁ hr₁ hl₁ => ⟨?_, fun _ => .retryable (hkept.keeps hr₁)⟩
  have hkept₁ := hkept.keeps hr₁
  cases hrow : t₁.row (.effect u.beneficiary u.effect) with
  | none => exact .invalidState hkept₁
  | some raw =>
    dsimp only
    rw [validatedEffect_of (hl₁.effects _ _ _ hrow)]
    dsimp only
    split
    · refine Program.safe_read fun t₂ hr₂ hl₂ => ⟨?_, fun _ => .retryable (hkept₁.keeps hr₂)⟩
      cases hevidence : t₂.row (.providerUsage u.beneficiary (env.evidenceId u.effect)) with
      | some existing => exact .classified hl₂ (hkept₁.keeps hr₂) hevidence
      | none => exact .invalidState (hkept₁.keeps hr₂)
    · rename_i hstate
      split
      · exact .retryable hkept₁
      · split
        · exact .retryable hkept₁
        · rename_i hweek
          exact u.observe_safe faults own t₁ hkept₁ hrow (not_not.mp hstate) (not_not.mp hweek)

theorem run_safe (env : Env) (u : Usage) (faults : Faults) (t : Table Key Row) :
    (u.run env).Safe faults (contract env faults).toInterference (u.Commits env)
      (u.Outcome env) [] t := by
  have hkept : ∀ t, u.Kept env [] t := fun t h => absurd rfl h
  refine Program.safe_read fun t₁ _ hl₁ => ⟨?_, fun _ => .retryable (hkept t₁)⟩
  cases hrow : t₁.row (.providerUsage u.beneficiary (env.evidenceId u.effect)) with
  | some existing => exact .classified hl₁ (hkept t₁) hrow
  | none =>
    exact Program.safe_retry (u.Kept env) (fun own t hk => u.attempt_safe faults own t hk)
      (fun _ _ hk => .retryable hk) _ _ _ (hkept t₁)

end Usage

/-! ## Finalizing and restoring -/

namespace Completion

/-- A call that committed finds its own finalization from then on. -/
def Kept (env : Env) (c : Completion) (own : List (Table Key Row × Table Key Row))
    (t : Table Key Row) : Prop :=
  own ≠ [] → ∃ row done, t.row (.effect c.beneficiary c.effect) = some row ∧
    row.finalized = some done ∧ done.finalizationPayloadDigest = c.digest env

/-- A commit settles an effect that was not settled before. -/
def Settles (beneficiary : Text) (effect : Sha256) (t t' : Table Key Row) : Prop :=
  (∃ row, t.row (.effect beneficiary effect) = some row ∧ row.finalized = none) ∧
    ∃ row, t'.row (.effect beneficiary effect) = some row ∧ row.finalized.isSome

/-- What a completion call's answer says about the table. -/
structure Outcome (env : Env) (c : Completion) (result : Except Failure FinalizationResult)
    (own : List (Table Key Row × Table Key Row)) (t : Table Key Row) : Prop where
  kept : c.Kept env own t
  settled : ∀ d r, result = .ok ⟨d, r⟩ → d = .finalized ∨ d = .restored →
    ∃ p ∈ own, Settles c.beneficiary c.effect p.1 p.2
  answered : ∀ d r, result = .ok ⟨d, r⟩ → d = .finalized ∨ d = .restored ∨ d = .replayed →
    ∃ row done finalization, t.row (.effect c.beneficiary c.effect) = some row ∧
      row.finalized = some done ∧ done.finalizationPayloadDigest = c.digest env ∧
      finalizationFromEffect row = .ok finalization ∧ r = some finalization

variable {c : Completion} {own : List (Table Key Row × Table Key Row)} {t t' : Table Key Row}

theorem Kept.keeps (h : c.Kept env own t) (hk : Keeps t t') : c.Kept env own t' := by
  intro hown
  obtain ⟨row, fin, hrow, hfin, hdigest⟩ := h hown
  obtain ⟨row', hrow', hext⟩ := hk.effect _ _ _ hrow
  exact ⟨row', fin, hrow', by rw [hext.finalized (by simp [hfin]), hfin], hdigest⟩

/-- An answer that neither settles nor replays says nothing about the table. -/
theorem Outcome.quiet (hk : c.Kept env own t) {result : Except Failure FinalizationResult}
    (h : ∀ d r, result = .ok ⟨d, r⟩ → d ≠ .finalized ∧ d ≠ .restored ∧ d ≠ .replayed) :
    c.Outcome env result own t where
  kept := hk
  settled := fun d r hr hd => (hd.elim (h d r hr).1 (h d r hr).2.1).elim
  answered := fun d r hr hd =>
    (hd.elim (h d r hr).1 fun hd => hd.elim (h d r hr).2.1 (h d r hr).2.2).elim

theorem Outcome.retryable (hk : c.Kept env own t) :
    c.Outcome env (.ok ⟨.retryable, none⟩) own t :=
  .quiet hk fun d r hr => by
    simp only [Except.ok.injEq, FinalizationResult.mk.injEq] at hr
    simp [← hr.1]

theorem Outcome.invalidState (hk : c.Kept env own t) :
    c.Outcome env (.ok ⟨.invalidState, none⟩) own t :=
  .quiet hk fun d r hr => by
    simp only [Except.ok.injEq, FinalizationResult.mk.injEq] at hr
    simp [← hr.1]

theorem Outcome.classified (hl : Ledger env t) (hk : c.Kept env own t) {row : EffectRow}
    (hrow : t.row (.effect c.beneficiary c.effect) = some row) (hs : IsSettled row.state) :
    c.Outcome env (.ok (c.classify env row)) own t := by
  obtain ⟨fin, f, hfin, hf⟩ := (hl.effects _ _ _ hrow).phase.finalization hs
  rw [classify, classifyFinalization_of hfin hf]
  by_cases hdigest : fin.finalizationPayloadDigest = c.digest env
  · rw [if_pos hdigest]
    exact {
      kept := hk
      settled := fun d r hr hd => by
        simp only [Except.ok.injEq, FinalizationResult.mk.injEq] at hr
        simp [← hr.1] at hd
      answered := fun d r hr _ => ⟨row, fin, f, hrow, hfin, hdigest, hf, by
        simp only [Except.ok.injEq, FinalizationResult.mk.injEq] at hr
        exact hr.2.symm⟩ }
  · rw [if_neg hdigest]
    refine .quiet hk fun d r hr => ?_
    simp only [Except.ok.injEq, FinalizationResult.mk.injEq] at hr
    simp [← hr.1]

theorem plan_error {current : EffectRow} {week : WeekFields}
    {counter : LedgerCounter c.beneficiary week} {evidence : ProviderUsageEvidence}
    {result : Except Failure FinalizationResult}
    (h : c.plan env current week counter evidence = .error result) :
    ∀ d r, result = .ok ⟨d, r⟩ → d ≠ .finalized ∧ d ≠ .restored ∧ d ≠ .replayed := by
  rintro d r rfl
  simp only [plan] at h
  repeat' split at h
  all_goals cases h
  all_goals simp

theorem raced_safe (c : Completion) (faults : Faults) (own : List (Table Key Row × Table Key Row)) (t : Table Key Row)
    (hk : c.Kept env own t) :
    (Program.read (.effect c.beneficiary c.effect) fun
        | none => done ⟨.retryable, none⟩
        | some none => .ret none
        | some (some raced) =>
          if IsSettled raced.state then done (c.classify env raced) else .ret none :
          Attempt FinalizationResult).Safe faults
          (contract env faults).toInterference (c.Commits env)
          (Post.orLost (c.Outcome env) (c.Kept env)) own t := by
  refine Program.safe_read fun t' hr hl => ⟨?_, fun _ => .retryable (hk.keeps hr)⟩
  cases hrow : t'.row (.effect c.beneficiary c.effect) with
  | some raced =>
    dsimp only
    split
    · rename_i hs
      exact .classified hl (hk.keeps hr) hrow hs
    · exact hk.keeps hr
  | none => exact hk.keeps hr

/-- The completion of an observed effect, planned from the rows of `t`. -/
theorem settle_safe (c : Completion) (faults : Faults) {current : EffectRow} {week : WeekFields}
    (own : List (Table Key Row × Table Key Row)) (t : Table Key Row)
    (hkept : c.Kept env own t)
    (hcurrent : t.row (.effect c.beneficiary c.effect) = some current)
    (hstate : current.state = .observed) (hweek : current.weekIdentity = week.identity) :
    (c.settle env current week).Safe faults (contract env faults).toInterference
      (c.Commits env) (Post.orLost (c.Outcome env) (c.Kept env)) own t := by
  refine Program.safe_read fun t₁ hr₁ hl₁ => ⟨?_, fun _ => ?_⟩
  on_goal 2 => exact .retryable (hkept.keeps hr₁)
  have hkept₁ := hkept.keeps hr₁
  cases hcounter : readCounter c.beneficiary week
    (some (t₁.row (.counter c.beneficiary week.identity))) with
  | error message => exact .retryable hkept₁
  | ok counter =>
    cases hobserved : current.observed with
    | none => exact .retryable hkept₁
    | some observed =>
      refine Program.safe_read fun t₂ hr₂ hl₂ => ⟨?_, fun _ => .retryable (hkept₁.keeps hr₂)⟩
      have hkept₂ := hkept₁.keeps hr₂
      cases hitem : t₂.row (.providerUsage c.beneficiary observed.evidenceId) with
      | none => exact .retryable hkept₂
      | some item =>
        cases counter with
        | none => exact .retryable hkept₂
        | some counter =>
          cases hevidence : evidenceFromItem item with
          | error message =>
            simp only [hevidence]
            exact .retryable hkept₂
          | ok evidence =>
            simp only [hevidence]
            have hread := Option.some.inj (readCounter_eq_ok hcounter)
            cases hplan : c.plan env current week counter evidence with
            | error result => exact .quiet hkept₂ (plan_error hplan)
            | ok plan =>
              have hplanned := planned hplan
              refine Program.safe_transact
                (fun t₃ hr₃ hl₃ => c.raced_safe faults own t₃ (hkept₂.keeps hr₃))
                fun t₃ hr₃ hl₃ hadmits => ?_
              have hreplaced := hadmits.2 (putReplace c.beneficiary c.effect plan.effect
                current.stateVersion .observed) (by simp [operations])
              have hcondition := hadmits.2 (.put (.counter c.beneficiary week.identity)
                plan.counter.item plan.counter.condition) (by simp [operations])
              have hbefore : t₃.row (.effect c.beneficiary c.effect) = some current :=
                effect_stored hcurrent (hr₁.trans (hr₂.trans hr₃)) hreplaced
              have hcommits : c.Commits env t₃ (t₃.apply (c.operations current week plan)) := by
                rw [apply_operations]
                exact .mk current week counter observed item evidence plan hbefore hstate hweek
                  (counter_stored (some counter) hread (hr₂.trans hr₃)
                    hplanned.written hcondition) hobserved (hr₃.evidence _ _ _ hitem) hevidence
                  hplanned
              have hl₄ := hcommits.ledger hl₃
              have hstored : (t₃.apply (c.operations current week plan)).row
                  (.effect c.beneficiary c.effect) = some plan.effect := by
                rw [apply_operations, Table.row_set_of_ne _ _ (by simp), Table.row_set_self]
              have hsettled : IsSettled plan.effect.state := by
                rw [hplanned.effect, nextEffect]
                cases c.restore <;> simp [IsSettled]
              obtain ⟨fin, f, hfin, hf⟩ :=
                (hl₄.effects _ _ _ hstored).phase.finalization hsettled
              have hdigest : fin.finalizationPayloadDigest = c.digest env := by
                rw [hplanned.effect] at hfin
                rw [← Option.some.inj hfin]
              have hkept₄ : c.Kept env ((t₃, t₃.apply (c.operations current week plan)) :: own)
                  (t₃.apply (c.operations current week plan)) :=
                fun _ => ⟨_, fin, hstored, hfin, hdigest⟩
              have hphase := (hl₃.effects _ _ _ hbefore).phase
              simp only [EffectRow.Phase, hstate] at hphase
              refine ⟨hcommits, ?_, c.raced_safe faults _ _ hkept₄⟩
              simp only [hf]
              exact {
                kept := hkept₄
                settled := fun d r _ _ => ⟨_, List.mem_cons_self ..,
                  ⟨current, hbefore, hphase.2.2⟩, plan.effect, hstored, by simp [hfin]⟩
                answered := fun d r hr _ => ⟨_, fin, f, hstored, hfin, hdigest, hf, by
                  simp only [Except.ok.injEq, FinalizationResult.mk.injEq] at hr
                  exact hr.2.symm⟩ }

theorem attempt_safe (c : Completion) (faults : Faults)
    (own : List (Table Key Row × Table Key Row)) (t : Table Key Row)
    (hkept : c.Kept env own t) :
    (c.attempt env).Safe faults (contract env faults).toInterference (c.Commits env)
      (Post.orLost (c.Outcome env) (c.Kept env)) own t := by
  refine Program.safe_read fun t₁ hr₁ hl₁ => ⟨?_, fun _ => .retryable (hkept.keeps hr₁)⟩
  have hkept₁ := hkept.keeps hr₁
  cases hrow : t₁.row (.effect c.beneficiary c.effect) with
  | none => exact .invalidState hkept₁
  | some raw =>
    dsimp only
    rw [validatedEffect_of (hl₁.effects _ _ _ hrow)]
    dsimp only
    split
    · rename_i hs
      exact .classified hl₁ hkept₁ hrow hs
    · split
      · exact .invalidState hkept₁
      · rename_i hstate
        split
        · exact .retryable hkept₁
        · split
          · exact .retryable hkept₁
          · rename_i hweek
            exact c.settle_safe faults own t₁ hkept₁ hrow (not_not.mp hstate)
              (not_not.mp hweek)

theorem run_safe (env : Env) (c : Completion) (faults : Faults) (t : Table Key Row) :
    (c.run env).Safe faults (contract env faults).toInterference (c.Commits env)
      (c.Outcome env) [] t :=
  Program.safe_retry (c.Kept env) (fun own t hk => c.attempt_safe faults own t hk) (fun _ _ hk => .retryable hk) _ _ _
    fun h => absurd rfl h

end Completion

/-! ## Releasing -/

namespace Release

theorem giveBack_safe (v : Release) (faults : Faults)
    (own : List (Table Key Row × Table Key Row)) (t : Table Key Row) :
    (v.giveBack env).Safe faults (contract env faults).toInterference (v.Commits env)
      (fun _ _ _ => True) own t := by
  refine (Program.safe_bind _ _ _ _).mpr ?_
  have hrun := (v.completion.run_safe env faults t).frame own
  refine hrun.mono (fun _ _ _ hc => .restore hc) fun a own t _ => ?_
  cases a with
  | error failure => trivial
  | ok restored =>
    obtain ⟨disposition, finalization⟩ := restored
    cases disposition <;> trivial

theorem run_safe (v : Release) (faults : Faults) (t : Table Key Row) :
    (v.run env).Safe faults (contract env faults).toInterference (v.Commits env)
      (fun _ _ _ => True) [] t := by
  refine Program.safe_read fun t₁ _ hl₁ => ⟨?_, fun _ => trivial⟩
  cases hrow : t₁.row (.effect v.beneficiary v.effect) with
  | none => trivial
  | some raw =>
    dsimp only
    have hsound := hl₁.effects _ _ _ hrow
    simp only [validatedEffect_of hsound, storedCount_of hsound.readable.inputTokens,
      storedCount_of hsound.readable.outputTokens]
    cases raw.state with
    | finalized => trivial
    | restored => trivial
    | observed => exact v.giveBack_safe faults [] t₁
    | reserved =>
      refine (Program.safe_bind _ _ _ _).mpr ?_
      have hrun := (v.usage env ⟨_, hsound.readable.inputTokens⟩
        ⟨_, hsound.readable.outputTokens⟩).run_safe env faults t₁
      refine hrun.mono (fun _ _ _ hc => .usage _ _ hc) fun a own t _ => ?_
      cases a with
      | error failure => trivial
      | ok recorded =>
        obtain ⟨disposition, evidence⟩ := recorded
        cases disposition with
        | recorded => exact v.giveBack_safe faults own t
        | replayed => exact v.giveBack_safe faults own t
        | idempotencyConflict => trivial
        | invalidState => trivial
        | retryable => trivial

end Release

/-! ## The service -/

/-- What a call runs once its arguments are checked. -/
def Checked.run : Checked env → Program Key Row (Result env)
  | .reserve v => v.run.bind fun a => .ret (.of .reservation a)
  | .usage u => (u.run env).bind fun a => .ret (.of .usage a)
  | .completion c => (c.run env).bind fun a => .ret (.of .finalization a)
  | .release v => (v.run env).bind fun a => .ret (.of .release a)

theorem Call.body_eq (call : Call env) :
    call.body = match call.checked with
      | .ok x => x.run
      | .error failure => .ret (.raised failure) := by
  cases call with
  | reserve r =>
      simp only [Call.body, Call.checked, reserveAllowance]
      cases r.checked <;> rfl
  | record r =>
      simp only [Call.body, Call.checked, recordProviderUsage]
      cases r.checked <;> rfl
  | finalize r =>
      simp only [Call.body, Call.checked, finalizeAllowance, completeAllowance]
      cases r.checked false <;> rfl
  | restore r =>
      simp only [Call.body, Call.checked, restoreAllowance, completeAllowance]
      cases r.checked true <;> rfl
  | release r =>
      simp only [Call.body, Call.checked, releaseUnknownCost]
      cases r.checked <;> rfl

/-- What each call owes when it returns. -/
def Checked.Owes : Checked env → Post Key Row (Result env)
  | .reserve v => fun result own t => ∃ a, result = .of .reservation a ∧ v.Outcome a own t
  | .usage u => fun result own t => ∃ a, result = .of .usage a ∧ u.Outcome env a own t
  | .completion c => fun result own t =>
      ∃ a, result = .of .finalization a ∧ c.Outcome env a own t
  | .release _ => fun _ _ _ => True

def Call.Owes (call : Call env) : Post Key Row (Result env) := fun result own t =>
  ∀ x, call.checked = .ok x → x.Owes result own t

theorem Checked.run_safe (faults : Faults) (x : Checked env) (t : Table Key Row) :
    x.run.Safe faults (contract env faults).toInterference x.Commits x.Owes [] t := by
  cases x with
  | reserve v =>
    refine (Program.safe_bind _ _ _ _).mpr ?_
    exact (v.run_safe faults t).mono (fun _ _ _ hc => hc) fun a own t ha => ⟨a, rfl, ha⟩
  | usage u =>
    refine (Program.safe_bind _ _ _ _).mpr ?_
    exact (u.run_safe env faults t).mono (fun _ _ _ hc => hc) fun a own t ha => ⟨a, rfl, ha⟩
  | completion c =>
    refine (Program.safe_bind _ _ _ _).mpr ?_
    exact (c.run_safe env faults t).mono (fun _ _ _ hc => hc) fun a own t ha => ⟨a, rfl, ha⟩
  | release v =>
    refine (Program.safe_bind _ _ _ _).mpr ?_
    exact (v.run_safe faults t).mono (fun _ _ _ hc => hc) fun _ _ _ _ => trivial

/-- A call is as safe as what it runs. -/
theorem Call.body_safe_of {faults : Faults} {call : Call env} {t : Table Key Row}
    {Q : Post Key Row (Result env)}
    (h : ∀ x, call.checked = .ok x →
      x.run.Safe faults (contract env faults).toInterference x.Commits Q [] t)
    (herror : ∀ failure, call.checked = .error failure → Q (.raised failure) [] t) :
    call.body.Safe faults (contract env faults).toInterference call.Commits Q [] t := by
  rw [body_eq]
  split
  · rename_i x hx
    exact (h x hx).mono (fun _ _ _ hc => ⟨x, hx, hc⟩) fun _ _ _ hq => hq
  · rename_i failure hx
    exact herror failure hx

/-- Every call is safe wherever it is started. -/
theorem Call.body_safe (faults : Faults) (call : Call env) (t : Table Key Row) :
    call.body.Safe faults (contract env faults).toInterference call.Commits call.Owes [] t := by
  refine body_safe_of (fun x hx => ?_) fun failure hx x hx' => by simp [hx] at hx'
  refine (x.run_safe faults t).mono (fun _ _ _ hc => hc) fun a own t ha x' hx' => ?_
  cases hx.symm.trans hx'
  exact ha

/-- Every reachable state of the ledger is sound. -/
theorem sound {faults : Faults} {t : Table Key Row}
    {s : State Key Row (Call env) (Result env)} (hfresh : Fresh t)
    (h : Reachable (service env faults) t s) :
    Sound (contract env faults) (fun _ => Call.Owes) s :=
  Reachable.sound h hfresh.ledger fun c u _ => c.body_safe faults u

end Stoa.Allowance
