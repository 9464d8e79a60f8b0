import Stoa.Verification.Allowance.Commits
import Mathlib.Algebra.Group.Int.Defs

/-! # The ledger's invariant

A week's counter is the sum of what its effects and its evidence contribute, and
never holds more than the budget that is stored on it. -/

namespace Stoa.Allowance

open RowStore

variable {env : Env}

/-! ## Contributions -/

/-- What an effect contributes to each count of its week. -/
def EffectRow.contribution (row : EffectRow) : TokenField → ℤ
  | .reservedInputTokens =>
      if row.state = .reserved ∨ row.state = .observed then row.reservationInputTokens else 0
  | .reservedOutputTokens =>
      if row.state = .reserved ∨ row.state = .observed then row.reservationOutputTokens else 0
  | .finalizedInputTokens =>
      if row.state = .finalized then row.finalized.elim 0 (·.finalizedInputTokens) else 0
  | .finalizedOutputTokens =>
      if row.state = .finalized then row.finalized.elim 0 (·.finalizedOutputTokens) else 0
  | .providerCostInputTokens => 0
  | .providerCostOutputTokens => 0

/-- What a piece of evidence contributes to each count of its week. -/
def EvidenceRow.contribution (row : EvidenceRow) : TokenField → ℤ
  | .providerCostInputTokens => row.inputTokens
  | .providerCostOutputTokens => row.outputTokens
  | .finalizedInputTokens => 0
  | .finalizedOutputTokens => 0
  | .reservedInputTokens => 0
  | .reservedOutputTokens => 0

/-- What a stored row contributes to a count of a beneficiary's week. -/
def entry (beneficiary : Text) (week : String) (field : TokenField) : (k : Key) → Row k → ℤ
  | .effect b _, row =>
      if b = beneficiary ∧ row.weekIdentity = week then row.contribution field else 0
  | .providerUsage b _, row =>
      if b = beneficiary ∧ row.weekIdentity = week then row.contribution field else 0
  | .accountFence _, _ => 0
  | .counter _ _, _ => 0

/-- The count that the week's counter holds; a week without a counter counts 0. -/
def ledgerCount (t : Table Key Row) (beneficiary : Text) (week : String)
    (field : TokenField) : ℤ :=
  (t.row (.counter beneficiary week)).elim 0 fun row => row.counts field

/-- Every count of the week is the sum of the contributions. -/
def Conserved (t : Table Key Row) : Prop :=
  ∀ beneficiary week field,
    ledgerCount t beneficiary week field = t.total (entry beneficiary week field)

/-! ## The invariant -/

/-- The counts are in range and within the budget stored beside them. -/
structure Capped (row : CounterRow TokenField TokenFields) : Prop where
  counts : ∀ field, IsCount (row.counts field)
  budget : ∃ fields, row.fields = some fields ∧
    row.counts .finalizedInputTokens + row.counts .reservedInputTokens ≤
      fields.budgetInputTokens ∧
    row.counts .finalizedOutputTokens + row.counts .reservedOutputTokens ≤
      fields.budgetOutputTokens

structure Ledger (env : Env) (t : Table Key Row) : Prop where
  counters : ∀ b w row, t.row (.counter b w) = some row → Capped row
  effects : ∀ b e row, t.row (.effect b e) = some row → row.Sound env b e
  evidence : ∀ b x row, t.row (.providerUsage b x) = some row → row.Sound
  conserved : Conserved t

theorem Fresh.ledger {t : Table Key Row} (h : Fresh t) : Ledger env t where
  counters := fun b w row hrow => by simp [h (.counter b w)] at hrow
  effects := fun b e row hrow => by simp [h (.effect b e)] at hrow
  evidence := fun b x row hrow => by simp [h (.providerUsage b x)] at hrow
  conserved := by
    intro b w f
    rw [ledgerCount, h (.counter b w) (by simp), Option.elim_none]
    refine (Table.total_eq_zero t _ fun k row hrow => ?_).symm
    cases k with
    | accountFence user => rfl
    | counter b w => rfl
    | effect b e => simp [h (.effect b e)] at hrow
    | providerUsage b x => simp [h (.providerUsage b x)] at hrow

/-- Fences contribute nothing, so other code cannot disturb the ledger. -/
theorem Ledger.drift {t t' : Table Key Row} (h : Ledger env t) (hd : FenceDrift t t') :
    Ledger env t' where
  counters := fun b w row hrow => h.counters b w row (hd (.counter b w) (by simp) ▸ hrow)
  effects := fun b e row hrow => h.effects b e row (hd (.effect b e) (by simp) ▸ hrow)
  evidence := fun b x row hrow => h.evidence b x row (hd (.providerUsage b x) (by simp) ▸ hrow)
  conserved := by
    intro b w f
    rw [ledgerCount, hd (.counter b w) (by simp)]
    refine (h.conserved b w f).trans (Table.total_congr ?_)
    intro k
    by_cases hk : ∃ user, k = .accountFence user
    · obtain ⟨user, rfl⟩ := hk
      cases t.row (.accountFence user) <;> cases t'.row (.accountFence user) <;> rfl
    · rw [hd k fun user he => hk ⟨user, he⟩]

/-! ## Postings

A commit posts amounts to one counter and to the rows it sums up. -/

theorem ledgerCount_set_counter (t : Table Key Row) (b b' : Text) (w w' : String)
    (row : CounterRow TokenField TokenFields) (f : TokenField) :
    ledgerCount (t.set (.counter b w) (some row)) b' w' f =
      if b' = b ∧ w' = w then row.counts f else ledgerCount t b' w' f := by
  unfold ledgerCount
  split
  · rename_i h
    obtain ⟨rfl, rfl⟩ := h
    rw [Table.row_set_self, Option.elim_some]
  · rename_i h
    have hk : Key.counter b' w' ≠ .counter b w := by simpa using h
    rw [Table.row_set_of_ne t (some row) hk]

theorem total_set_counter (t : Table Key Row) (b b' : Text) (w w' : String)
    (row : CounterRow TokenField TokenFields) (f : TokenField) :
    (t.set (.counter b w) (some row)).total (entry b' w' f) = t.total (entry b' w' f) := by
  have h := Table.total_set t (entry b' w' f) (.counter b w) (some row)
  have hold : (t.row (.counter b w)).elim 0 (entry b' w' f (.counter b w)) = 0 := by
    cases t.row (.counter b w) <;> rfl
  rw [hold] at h
  simpa [entry] using h

theorem total_set_effect (t : Table Key Row) (b b' : Text) (e : Sha256) (w' : String)
    (row : EffectRow) (f : TokenField) :
    (t.set (.effect b e) (some row)).total (entry b' w' f) =
      t.total (entry b' w' f) - (t.row (.effect b e)).elim 0 (entry b' w' f (.effect b e)) +
        entry b' w' f (.effect b e) row := by
  have h := Table.total_set t (entry b' w' f) (.effect b e) (some row)
  rw [Option.elim_some] at h
  omega

theorem total_set_evidence (t : Table Key Row) (b b' : Text) (x : Sha256) (w' : String)
    (row : EvidenceRow) (f : TokenField) (habsent : t.row (.providerUsage b x) = none) :
    (t.set (.providerUsage b x) (some row)).total (entry b' w' f) =
      t.total (entry b' w' f) + entry b' w' f (.providerUsage b x) row := by
  have h := Table.total_set t (entry b' w' f) (.providerUsage b x) (some row)
  rw [habsent, Option.elim_some, Option.elim_none] at h
  omega

/-- The counter moves by what the rows that were written contribute. -/
theorem Conserved.post {t u : Table Key Row} {b : Text} {w : String}
    {row : CounterRow TokenField TokenFields} (amount : TokenField → ℤ) (h : Conserved t)
    (hcounter : ∀ b' w', u.row (.counter b' w') = t.row (.counter b' w'))
    (hcounts : ∀ f, row.counts f = ledgerCount t b w f + amount f)
    (htotal : ∀ b' w' f, u.total (entry b' w' f) =
      t.total (entry b' w' f) + if b' = b ∧ w' = w then amount f else 0) :
    Conserved (u.set (.counter b w) (some row)) := by
  intro b' w' f
  rw [ledgerCount_set_counter, total_set_counter, htotal, ← h b' w' f]
  split
  · rename_i hbw
    obtain ⟨rfl, rfl⟩ := hbw
    exact hcounts f
  · rw [ledgerCount, hcounter, ledgerCount]
    omega

/-! ## Reserving -/

theorem LedgerCounter.previousCount_some {beneficiary : Text} {week : WeekFields}
    (c : LedgerCounter beneficiary week) (f : TokenField) :
    previousCount (some c.counter) f = c.count f := rfl

theorem Reserve.Planned.amounts {v : Reserve env} {generation : Version}
    {counter : Option (LedgerCounter v.beneficiary v.week.toWeekFields)} {plan : Reserve.Plan}
    (h : v.Planned generation counter plan) (f : TokenField) :
    plan.counter.item.counts f =
      previousCount (counter.map (·.counter)) f + plan.effect.contribution f := by
  rw [(write_written h.written).counts, h.effect]
  cases counter <;> cases f <;>
    simp [setCounts, previousCount, Reserve.nextEffect, EffectRow.contribution,
      LedgerCounter.count]

theorem Reserve.Planned.capped {v : Reserve env} {generation : Version}
    {counter : Option (LedgerCounter v.beneficiary v.week.toWeekFields)} {plan : Reserve.Plan}
    (h : v.Planned generation counter plan) : Capped plan.counter.item where
  counts := fun f => (write_written h.written).counts_valid (TOKENS_countFields f)
  budget := by
    have hin := h.input_fits
    have hout := h.output_fits
    refine ⟨_, (write_written h.written).fields, ?_⟩
    rw [(write_written h.written).counts]
    cases counter <;>
      simp [setCounts, previousCount, LedgerCounter.count] at hin hout ⊢ <;> omega

theorem Reserve.Planned.sound {v : Reserve env} {generation : Version}
    {counter : Option (LedgerCounter v.beneficiary v.week.toWeekFields)} {plan : Reserve.Plan}
    (h : v.Planned generation counter plan) :
    plan.effect.Sound env v.beneficiary v.effect := by
  rw [h.effect]
  exact {
    entityType := rfl
    schemaVersion := rfl
    beneficiaryId := rfl
    effectId := rfl
    readable := {
      allowanceVersion := v.budget.allowanceVersion.property
      inputTokens := v.requestedInput.property
      outputTokens := v.requestedOutput.property
      stateVersion := h.version
      week := v.week.valid }
    accountFenceGeneration := generation.property
    observed := fun o ho => by simp [Reserve.nextEffect] at ho
    phase := ⟨rfl, rfl, rfl⟩ }

theorem Reserve.Commits.ledger {v : Reserve env} {t t' : Table Key Row} (h : Ledger env t)
    (hc : v.Commits t t') : Ledger env t' := by
  cases hc with
  | mk generation counter plan absent stored planned =>
    refine ⟨?_, ?_, ?_, ?_⟩
    · intro b w row hrow
      by_cases hk : Key.counter b w = .counter v.beneficiary v.week.identity
      · obtain ⟨rfl, rfl⟩ := Key.counter.inj hk
        rw [Table.row_set_self] at hrow
        cases hrow
        exact planned.capped
      · rw [Table.row_set_of_ne _ _ hk, Table.row_set_of_ne _ _ (by simp)] at hrow
        exact h.counters b w row hrow
    · intro b e row hrow
      rw [Table.row_set_of_ne _ _ (by simp)] at hrow
      by_cases hk : Key.effect b e = .effect v.beneficiary v.effect
      · obtain ⟨rfl, rfl⟩ := Key.effect.inj hk
        rw [Table.row_set_self] at hrow
        cases hrow
        exact planned.sound
      · rw [Table.row_set_of_ne _ _ hk] at hrow
        exact h.effects b e row hrow
    · intro b x row hrow
      rw [Table.row_set_of_ne _ _ (by simp), Table.row_set_of_ne _ _ (by simp)] at hrow
      exact h.evidence b x row hrow
    · refine h.conserved.post plan.effect.contribution
        (fun b' w' => Table.row_set_of_ne _ _ (by simp)) (fun f => ?_) (fun b' w' f => ?_)
      · rw [planned.amounts, ledgerCount, stored]
        cases counter <;> rfl
      · have hweek : plan.effect.weekIdentity = v.week.identity := by
          rw [planned.effect]
          rfl
        rw [total_set_effect, absent, Option.elim_none, entry, hweek]
        simp only [eq_comm (a := v.beneficiary), eq_comm (a := v.week.identity)]
        omega

/-! ## Observing -/

theorem Usage.Planned.amounts {u : Usage} {current : EffectRow} {week : WeekFields}
    {counter : LedgerCounter u.beneficiary week} {plan : Usage.Plan}
    (h : u.Planned env current week counter plan) (f : TokenField) :
    plan.counter.item.counts f = counter.count f + plan.evidence.contribution f := by
  rw [(write_written h.written).counts, h.evidence]
  cases f <;>
    simp [setCounts, previousCount, Usage.evidenceItem, EvidenceRow.contribution,
      LedgerCounter.count]

/-- Recording usage leaves the reservation and the debit as they are. -/
theorem Usage.Planned.contribution {u : Usage} {current : EffectRow} {week : WeekFields}
    {counter : LedgerCounter u.beneficiary week} {plan : Usage.Plan}
    (h : u.Planned env current week counter plan) (hstate : current.state = .reserved) :
    plan.effect.contribution = current.contribution := by
  rw [h.effect]
  funext f
  cases f <;> simp [Usage.nextEffect, EffectRow.contribution, hstate]

/-- A write that gives no new fields and keeps both sums keeps the bound. -/
theorem Capped.of_written {beneficiary : Text} {week : WeekFields}
    {counter : LedgerCounter beneficiary week} {counts : List (TokenField × ℤ)}
    {w : CounterWrite TokenField TokenFields} (h : Capped counter.counter.item)
    (hw : Written (some counter.counter) counts none w)
    (hin : w.item.counts .finalizedInputTokens + w.item.counts .reservedInputTokens ≤
      counter.count .finalizedInputTokens + counter.count .reservedInputTokens)
    (hout : w.item.counts .finalizedOutputTokens + w.item.counts .reservedOutputTokens ≤
      counter.count .finalizedOutputTokens + counter.count .reservedOutputTokens) :
    Capped w.item where
  counts := fun f => hw.counts_valid (TOKENS_countFields f)
  budget := by
    obtain ⟨fields, hfields, hin', hout'⟩ := h.budget
    refine ⟨fields, ?_, hin.trans hin', hout.trans hout'⟩
    rw [hw.fields]
    exact hfields

theorem Usage.Planned.sound {u : Usage} {current : EffectRow} {week : WeekFields}
    {counter : LedgerCounter u.beneficiary week} {plan : Usage.Plan}
    (h : u.Planned env current week counter plan)
    (hcurrent : current.Sound env u.beneficiary u.effect) (hstate : current.state = .reserved) :
    plan.effect.Sound env u.beneficiary u.effect ∧ plan.evidence.Sound := by
  have hphase := hcurrent.phase
  simp only [EffectRow.Phase, hstate] at hphase
  rw [h.effect, h.evidence]
  refine ⟨⟨hcurrent.entityType, hcurrent.schemaVersion, hcurrent.beneficiaryId,
    hcurrent.effectId, hcurrent.readable, hcurrent.accountFenceGeneration, ?_, ?_⟩,
    ⟨rfl, rfl, rfl, u.actualInput.property, u.actualOutput.property⟩⟩
  · intro o ho
    cases ho
    exact ⟨u.actualInput.property, u.actualOutput.property⟩
  · exact ⟨by simp [Usage.nextEffect, hphase.1], rfl, hphase.2.2⟩

theorem Usage.Commits.ledger {u : Usage} {t t' : Table Key Row} (h : Ledger env t)
    (hc : u.Commits env t t') : Ledger env t' := by
  cases hc with
  | mk current week counter plan effect reserved week_of stored absent planned =>
    have hsound := planned.sound (h.effects _ _ _ effect) reserved
    refine ⟨?_, ?_, ?_, ?_⟩
    · intro b w row hrow
      by_cases hk : Key.counter b w = .counter u.beneficiary week.identity
      · obtain ⟨rfl, rfl⟩ := Key.counter.inj hk
        rw [Table.row_set_self] at hrow
        cases hrow
        refine (h.counters _ _ _ stored).of_written (write_written planned.written) ?_ ?_ <;>
          simp [planned.amounts, EvidenceRow.contribution]
      · rw [Table.row_set_of_ne _ _ hk, Table.row_set_of_ne _ _ (by simp),
          Table.row_set_of_ne _ _ (by simp)] at hrow
        exact h.counters b w row hrow
    · intro b e row hrow
      rw [Table.row_set_of_ne _ _ (by simp)] at hrow
      by_cases hk : Key.effect b e = .effect u.beneficiary u.effect
      · obtain ⟨rfl, rfl⟩ := Key.effect.inj hk
        rw [Table.row_set_self] at hrow
        cases hrow
        exact hsound.1
      · rw [Table.row_set_of_ne _ _ hk, Table.row_set_of_ne _ _ (by simp)] at hrow
        exact h.effects b e row hrow
    · intro b x row hrow
      rw [Table.row_set_of_ne _ _ (by simp), Table.row_set_of_ne _ _ (by simp)] at hrow
      by_cases hk : Key.providerUsage b x = .providerUsage u.beneficiary (env.evidenceId u.effect)
      · obtain ⟨rfl, rfl⟩ := Key.providerUsage.inj hk
        rw [Table.row_set_self] at hrow
        cases hrow
        exact hsound.2
      · rw [Table.row_set_of_ne _ _ hk] at hrow
        exact h.evidence b x row hrow
    · refine h.conserved.post plan.evidence.contribution
        (fun b' w' => ?_) (fun f => ?_) (fun b' w' f => ?_)
      · rw [Table.row_set_of_ne _ _ (by simp), Table.row_set_of_ne _ _ (by simp)]
      · rw [planned.amounts, ledgerCount, stored]
        rfl
      · have hevidence : plan.evidence.weekIdentity = week.identity := by
          rw [planned.evidence]
          exact week_of
        have heffect : plan.effect.weekIdentity = current.weekIdentity := by
          rw [planned.effect]
          rfl
        rw [total_set_effect, Table.row_set_of_ne _ _ (by simp), effect, Option.elim_some,
          total_set_evidence _ _ _ _ _ _ _ absent]
        simp only [entry, hevidence, heffect, planned.contribution reserved,
          eq_comm (a := u.beneficiary), eq_comm (a := week.identity)]
        omega

/-! ## Completing -/

theorem Completion.Planned.amounts {c : Completion} {current : EffectRow} {week : WeekFields}
    {counter : LedgerCounter c.beneficiary week} {evidence : ProviderUsageEvidence}
    {plan : Completion.Plan} (h : c.Planned env current week counter evidence plan)
    (hstate : current.state = .observed) (f : TokenField) :
    plan.counter.item.counts f =
      counter.count f + (plan.effect.contribution f - current.contribution f) := by
  rw [(write_written h.written).counts, h.effect]
  by_cases hr : c.restore = true <;> cases f <;>
    simp [setCounts, previousCount, Completion.nextEffect, EffectRow.contribution,
      LedgerCounter.count, Completion.finalizedInput, Completion.finalizedOutput, hstate, hr,
      sub_eq_add_neg]

theorem Completion.Planned.sound {c : Completion} {current : EffectRow} {week : WeekFields}
    {counter : LedgerCounter c.beneficiary week} {evidence : ProviderUsageEvidence}
    {plan : Completion.Plan} (h : c.Planned env current week counter evidence plan)
    (hcurrent : current.Sound env c.beneficiary c.effect) (hstate : current.state = .observed) :
    plan.effect.Sound env c.beneficiary c.effect := by
  have hphase := hcurrent.phase
  simp only [EffectRow.Phase, hstate] at hphase
  obtain ⟨hversion, hobserved, -⟩ := hphase
  rw [h.effect]
  refine ⟨hcurrent.entityType, hcurrent.schemaVersion, hcurrent.beneficiaryId,
    hcurrent.effectId, hcurrent.readable, hcurrent.accountFenceGeneration, hcurrent.observed, ?_⟩
  have houtcome := c.outcome
  cases hr : c.restore with
  | true =>
      have hdelivered : c.flags.delivered = false := by simpa [hr] using houtcome
      simp only [EffectRow.Phase, Completion.nextEffect, hr, if_true]
      exact ⟨by omega, hobserved, _, rfl, hdelivered,
        by simpa [Completion.restoredInput, hr] using hcurrent.readable.inputTokens,
        by simpa [Completion.restoredOutput, hr] using hcurrent.readable.outputTokens,
        by simp [Completion.finalizedInput, hr], by simp [Completion.finalizedOutput, hr]⟩
  | false =>
      have hdelivered : c.flags.delivered = true := by simpa [hr] using houtcome
      simp only [EffectRow.Phase, Completion.nextEffect, hr, Bool.false_eq_true, if_false]
      exact ⟨by omega, hobserved, _, rfl, hdelivered,
        by simpa [Completion.finalizedInput, hr] using evidence.inputTokens.property,
        by simpa [Completion.finalizedOutput, hr] using evidence.outputTokens.property,
        by simp [Completion.restoredInput, hr], by simp [Completion.restoredOutput, hr]⟩

theorem Completion.Planned.capped {c : Completion} {current : EffectRow} {week : WeekFields}
    {counter : LedgerCounter c.beneficiary week} {evidence : ProviderUsageEvidence}
    {plan : Completion.Plan} (h : c.Planned env current week counter evidence plan)
    (hcurrent : current.Sound env c.beneficiary c.effect) (hstate : current.state = .observed)
    (hcapped : Capped counter.counter.item) : Capped plan.counter.item := by
  have hin := hcurrent.readable.inputTokens.1
  have hout := hcurrent.readable.outputTokens.1
  have hinput := h.input_fits
  have houtput := h.output_fits
  refine hcapped.of_written (write_written h.written) ?_ ?_ <;>
    rw [h.amounts hstate, h.amounts hstate, h.effect] <;>
    by_cases hr : c.restore = true <;>
    simp [EffectRow.contribution, Completion.nextEffect, Completion.finalizedInput,
      Completion.finalizedOutput, hstate, hr] at hinput houtput ⊢ <;> omega

theorem Completion.Commits.ledger {c : Completion} {t t' : Table Key Row} (h : Ledger env t)
    (hc : c.Commits env t t') : Ledger env t' := by
  cases hc with
  | mk current week counter observed item evidence plan effect state week_of stored observed_as
      usage read planned =>
    have hcurrent := h.effects _ _ _ effect
    refine ⟨?_, ?_, ?_, ?_⟩
    · intro b w row hrow
      by_cases hk : Key.counter b w = .counter c.beneficiary week.identity
      · obtain ⟨rfl, rfl⟩ := Key.counter.inj hk
        rw [Table.row_set_self] at hrow
        cases hrow
        exact planned.capped hcurrent state (h.counters _ _ _ stored)
      · rw [Table.row_set_of_ne _ _ hk, Table.row_set_of_ne _ _ (by simp)] at hrow
        exact h.counters b w row hrow
    · intro b e row hrow
      rw [Table.row_set_of_ne _ _ (by simp)] at hrow
      by_cases hk : Key.effect b e = .effect c.beneficiary c.effect
      · obtain ⟨rfl, rfl⟩ := Key.effect.inj hk
        rw [Table.row_set_self] at hrow
        cases hrow
        exact planned.sound hcurrent state
      · rw [Table.row_set_of_ne _ _ hk] at hrow
        exact h.effects b e row hrow
    · intro b x row hrow
      rw [Table.row_set_of_ne _ _ (by simp), Table.row_set_of_ne _ _ (by simp)] at hrow
      exact h.evidence b x row hrow
    · refine h.conserved.post
        (fun f => plan.effect.contribution f - current.contribution f)
        (fun b' w' => Table.row_set_of_ne _ _ (by simp)) (fun f => ?_) (fun b' w' f => ?_)
      · rw [planned.amounts state, ledgerCount, stored]
        rfl
      · have heffect : plan.effect.weekIdentity = current.weekIdentity := by
          rw [planned.effect]
          rfl
        rw [total_set_effect, effect, Option.elim_some]
        simp only [entry, heffect, week_of, eq_comm (a := c.beneficiary),
          eq_comm (a := week.identity)]
        split <;> omega

/-- Every commit of the ledger keeps its invariant. -/
theorem Call.Commits.ledger {c : Call env} {t t' : Table Key Row} (h : Ledger env t)
    (hc : c.Commits t t') : Ledger env t' :=
  hc.rec_on (fun _ h' => h'.ledger h) (fun _ h' => h'.ledger h) fun _ h' => h'.ledger h

end Stoa.Allowance
