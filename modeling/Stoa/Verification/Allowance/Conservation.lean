import Stoa.Store.Solo
import Stoa.Verification.Allowance.Safety

/-! # Conservation and the weekly cap

The two money properties of the ledger, in every state of every run. -/

namespace Stoa.Allowance

open RowStore

variable {env : Env}

/-- The counts on a stored row. -/
def CountsInRange : (k : Key) → Row k → Prop
  | .accountFence _, _ => True
  | .counter _ _, row => ∀ field, IsCount (row.counts field)
  | .effect _ _, row =>
      IsCount row.reservationInputTokens ∧ IsCount row.reservationOutputTokens ∧
        (∀ o, row.observed = some o →
          IsCount o.providerInputTokens ∧ IsCount o.providerOutputTokens) ∧
        ∀ done, row.finalized = some done →
          IsCount done.finalizedInputTokens ∧ IsCount done.finalizedOutputTokens ∧
            IsCount done.restoredInputTokens ∧ IsCount done.restoredOutputTokens
  | .providerUsage _ _, row => IsCount row.inputTokens ∧ IsCount row.outputTokens

theorem EffectRow.Phase.finalized_counts {row : EffectRow} (h : row.Phase)
    {done : FinalizedEffect} (hdone : row.finalized = some done) :
    IsCount done.finalizedInputTokens ∧ IsCount done.finalizedOutputTokens ∧
      IsCount done.restoredInputTokens ∧ IsCount done.restoredOutputTokens := by
  have hzero : IsCount 0 := by decide
  unfold EffectRow.Phase at h
  split at h
  · simp [h.2.2] at hdone
  · simp [h.2.2] at hdone
  · obtain ⟨-, -, d, hd, -, hin, hout, hrin, hrout⟩ := h
    cases hd.symm.trans hdone
    rw [hrin, hrout]
    exact ⟨hin, hout, hzero, hzero⟩
  · obtain ⟨-, -, d, hd, -, hrin, hrout, hin, hout⟩ := h
    cases hd.symm.trans hdone
    rw [hin, hout]
    exact ⟨hzero, hzero, hrin, hrout⟩

theorem Ledger.countsInRange {t : Table Key Row} (h : Ledger env t) (k : Key) (row : Row k)
    (hrow : t.row k = some row) : CountsInRange k row := by
  cases k with
  | accountFence user => trivial
  | counter b w => exact (h.counters b w row hrow).counts
  | effect b e =>
      have hsound := h.effects b e row hrow
      exact ⟨hsound.readable.inputTokens, hsound.readable.outputTokens, hsound.observed,
        fun done hdone => hsound.phase.finalized_counts hdone⟩
  | providerUsage b x =>
      have hsound := h.evidence b x row hrow
      exact ⟨hsound.inputTokens, hsound.outputTokens⟩

/-- A week's counter is the sum of its effects and its evidence, in each of its
counts: reserved tokens over the reserved and observed effects, finalized tokens
over the finalized ones, provider cost over the evidence. -/
theorem weekly_ledger_conserved {faults : Faults} {t : Table Key Row}
    {s : State Key Row (Call env) (Result env)} (hfresh : Fresh t)
    (h : Reachable (service env faults) t s) (beneficiary : Text) (week : String)
    (field : TokenField) :
    ledgerCount s.table beneficiary week field =
      s.table.total (entry beneficiary week field) :=
  (sound hfresh h).inv.conserved beneficiary week field

/-- A stored counter never holds more than the budget stored beside it, and no
stored count is negative or above `MAX_EXACT_COUNT`. -/
theorem weekly_cap {faults : Faults} {t : Table Key Row}
    {s : State Key Row (Call env) (Result env)} (hfresh : Fresh t)
    (h : Reachable (service env faults) t s) :
    (∀ b w row, s.table.row (.counter b w) = some row → ∃ fields, row.fields = some fields ∧
      row.counts .finalizedInputTokens + row.counts .reservedInputTokens ≤
        fields.budgetInputTokens ∧
      row.counts .finalizedOutputTokens + row.counts .reservedOutputTokens ≤
        fields.budgetOutputTokens) ∧
    ∀ k row, s.table.row k = some row → CountsInRange k row := by
  have hledger := (sound hfresh h).inv
  exact ⟨fun b w row hrow => (hledger.counters b w row hrow).budget, hledger.countsInRange⟩

/-! ## A ledger with one reservation -/

namespace Sample

def digestOf (c : Char) (h : isLowerHex c = true) : Sha256 :=
  ⟨String.ofList (List.replicate 64 c), isSha256_replicate c h⟩

/-- Zurich as it is in winter, and digests that tell a few payloads apart. -/
def sampleEnv : Env where
  zone := ⟨fun _ => 3600000000, fun wall => wall - 3600000000⟩
  payloadDigest
    | .reservation _ _ _ _ _ _ _ inputTokens _ =>
        if inputTokens = 40 then digestOf 'a' isLowerHex_a else digestOf 'b' isLowerHex_b
    | .providerUsage .. => digestOf 'c' isLowerHex_c
    | .finalization .. => digestOf 'd' isLowerHex_d
    | .restoration .. => digestOf 'e' isLowerHex_e
    | .unknownCost _ => digestOf 'f' isLowerHex_f
  evidenceId := fun _ => digestOf '1' isLowerHex_1

/-- 2026-W13 -/
def week : ZurichWeek sampleEnv.zone where
  isoYear := 2026
  isoWeek := 13
  windowStart := 1774220400000000
  windowEnd := 1774825200000000
  valid := by decide

def budget : PlanAllowanceBudget where
  planId := .freeTrial
  inputTokens := ⟨50000, by decide⟩
  outputTokens := ⟨10000, by decide⟩
  teacherSupportCases := ⟨0, by decide⟩
  teacherSupportScope := .none
  allowanceVersion := ⟨1, by decide⟩
  locked := rfl

def student : Text := ⟨"student", by decide⟩

def reserveTokens (inputTokens : ℤ) : Call sampleEnv := .reserve {
  beneficiaryId := "student"
  effectId := String.ofList (List.replicate 64 '7')
  week := week
  budget := budget
  inputTokens := inputTokens
  outputTokens := 10
  observedAt := 1774300000000000
  accountFenceGeneration := none }

def start : Table Key Row := Table.empty.set (.accountFence student) (some ⟨"active", some 1⟩)

theorem start_fresh : Fresh start := by
  intro k hk
  rw [start, Table.row_set_of_ne _ _ (hk student), Table.row_empty]

/-- The state after one reservation. -/
def reserved : State Key Row (Call sampleEnv) (Result sampleEnv) :=
  (State.initial start).solo (service sampleEnv .strongReads) (reserveTokens 40) []

theorem reserved_reachable : Reachable (service sampleEnv .strongReads) start reserved :=
  State.solo_steps trivial trivial trivial []

end Sample

theorem weekly_ledger_conserved_sample :
    Sample.reserved.table.total (entry Sample.student "2026-W13" .reservedInputTokens) = 40 := by
  rw [← weekly_ledger_conserved Sample.start_fresh Sample.reserved_reachable]
  decide

theorem weekly_cap_sample :
    ledgerCount Sample.reserved.table Sample.student "2026-W13" .reservedOutputTokens = 10 ∧
      ∀ k row, Sample.reserved.table.row k = some row → CountsInRange k row :=
  ⟨by decide, (weekly_cap Sample.start_fresh Sample.reserved_reachable).2⟩

end Stoa.Allowance
