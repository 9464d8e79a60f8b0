import Stoa.Verification.Allowance.Rows

/-! # What a commit of the ledger is

Each call commits as if its whole attempt ran at once: the rows it was planned
from are the rows that are stored when it commits. -/

namespace Stoa.Allowance

open RowStore

variable {env : Env}

/-! ## Plans -/

/-- What `Reserve.plan` decides when it decides to write. -/
structure Reserve.Planned (v : Reserve env) (generation : Version)
    (counter : Option (LedgerCounter v.beneficiary v.week.toWeekFields))
    (plan : Reserve.Plan) : Prop where
  version : IsPositive (previousVersion (counter.map (·.counter)) + 1)
  effect : plan.effect =
    v.nextEffect generation.val (previousVersion (counter.map (·.counter)) + 1)
  written : write TOKENS v.beneficiary.val v.week.toWeekFields (counter.map (·.counter))
    [(.reservedInputTokens, counter.elim 0 (·.count .reservedInputTokens) + v.requestedInput.val),
      (.reservedOutputTokens,
        counter.elim 0 (·.count .reservedOutputTokens) + v.requestedOutput.val)]
    (some {
      planId := v.budget.planId
      allowanceVersion := v.budget.allowanceVersion.val
      budgetInputTokens := v.budget.inputTokens.val
      budgetOutputTokens := v.budget.outputTokens.val
      accountFenceGeneration := generation.val }) v.now = .ok plan.counter
  input_fits : counter.elim 0 (·.count .finalizedInputTokens) +
    counter.elim 0 (·.count .reservedInputTokens) + v.requestedInput.val ≤
      v.budget.inputTokens.val
  output_fits : counter.elim 0 (·.count .finalizedOutputTokens) +
    counter.elim 0 (·.count .reservedOutputTokens) + v.requestedOutput.val ≤
      v.budget.outputTokens.val
  allowance_version : ∀ c, counter = some c →
    c.fields.allowanceVersion ≤ v.budget.allowanceVersion.val

theorem Reserve.planned {v : Reserve env} {generation : Version}
    {counter : Option (LedgerCounter v.beneficiary v.week.toWeekFields)} {plan : Reserve.Plan}
    (h : v.plan generation counter = .ok plan) : v.Planned generation counter plan := by
  simp only [Reserve.plan] at h
  split at h
  · cases h
  split at h
  · cases h
  rename_i hversion
  split at h
  · cases h
  split at h
  · cases h
  rename_i hfits
  split at h
  · cases h
  rename_i hpositive
  split at h
  · cases h
  rename_i hwrite
  cases h
  refine ⟨not_not.mp hpositive, rfl, hwrite, by omega, by omega, ?_⟩
  rintro c rfl
  simpa using hversion

structure Usage.Planned (env : Env) (u : Usage) (current : EffectRow) (week : WeekFields)
    (counter : LedgerCounter u.beneficiary week) (plan : Usage.Plan) : Prop where
  evidence : plan.evidence = u.evidenceItem env current.weekIdentity
  effect : plan.effect = u.nextEffect env current
  written : write TOKENS u.beneficiary.val week (some counter.counter)
    [(.providerCostInputTokens, counter.count .providerCostInputTokens + u.actualInput.val),
      (.providerCostOutputTokens, counter.count .providerCostOutputTokens + u.actualOutput.val)]
    none u.now = .ok plan.counter

theorem Usage.planned {u : Usage} {current : EffectRow} {week : WeekFields}
    {counter : LedgerCounter u.beneficiary week} {plan : Usage.Plan}
    (h : u.plan env current week counter = .ok plan) :
    u.Planned env current week counter plan := by
  simp only [Usage.plan] at h
  split at h
  · cases h
  split at h
  · cases h
  rename_i hwrite
  cases h
  exact ⟨rfl, rfl, hwrite⟩

structure Completion.Planned (env : Env) (c : Completion) (current : EffectRow)
    (week : WeekFields) (counter : LedgerCounter c.beneficiary week)
    (evidence : ProviderUsageEvidence) (plan : Completion.Plan) : Prop where
  effect : plan.effect = c.nextEffect env current evidence
  written : write TOKENS c.beneficiary.val week (some counter.counter)
    [(.reservedInputTokens,
        counter.count .reservedInputTokens - current.reservationInputTokens),
      (.reservedOutputTokens,
        counter.count .reservedOutputTokens - current.reservationOutputTokens),
      (.finalizedInputTokens, counter.count .finalizedInputTokens + c.finalizedInput evidence),
      (.finalizedOutputTokens, counter.count .finalizedOutputTokens + c.finalizedOutput evidence)]
    none c.now = .ok plan.counter
  input_fits : c.restore = true ∨ evidence.inputTokens.val ≤ current.reservationInputTokens
  output_fits : c.restore = true ∨ evidence.outputTokens.val ≤ current.reservationOutputTokens

theorem Completion.planned {c : Completion} {current : EffectRow} {week : WeekFields}
    {counter : LedgerCounter c.beneficiary week} {evidence : ProviderUsageEvidence}
    {plan : Completion.Plan} (h : c.plan env current week counter evidence = .ok plan) :
    c.Planned env current week counter evidence plan := by
  simp only [Completion.plan] at h
  split at h
  · cases h
  rename_i hfits
  split at h
  · cases h
  split at h
  · cases h
  rename_i hwrite
  cases h
  refine ⟨rfl, hwrite, ?_, ?_⟩ <;> by_cases hr : c.restore = true <;> simp [hr] at hfits ⊢ <;>
    omega

/-! ## Commits -/

/-- A reservation is committed. -/
inductive Reserve.Commits (v : Reserve env) (t : Table Key Row) : Table Key Row → Prop where
  | mk (generation : Version)
      (counter : Option (LedgerCounter v.beneficiary v.week.toWeekFields)) (plan : Reserve.Plan)
      (absent : t.row (.effect v.beneficiary v.effect) = none)
      (stored : t.row (.counter v.beneficiary v.week.identity) =
        counter.map fun c => c.counter.item)
      (planned : v.Planned generation counter plan) :
      Commits v t ((t.set (.effect v.beneficiary v.effect) (some plan.effect)).set
        (.counter v.beneficiary v.week.identity) (some plan.counter.item))

/-- An observation is committed. -/
inductive Usage.Commits (env : Env) (u : Usage) (t : Table Key Row) : Table Key Row → Prop where
  | mk (current : EffectRow) (week : WeekFields) (counter : LedgerCounter u.beneficiary week)
      (plan : Usage.Plan)
      (effect : t.row (.effect u.beneficiary u.effect) = some current)
      (reserved : current.state = .reserved)
      (week_of : current.weekIdentity = week.identity)
      (stored : t.row (.counter u.beneficiary week.identity) = some counter.counter.item)
      (absent : t.row (.providerUsage u.beneficiary (env.evidenceId u.effect)) = none)
      (planned : u.Planned env current week counter plan) :
      Commits env u t (((t.set (.providerUsage u.beneficiary (env.evidenceId u.effect))
        (some plan.evidence)).set (.effect u.beneficiary u.effect) (some plan.effect)).set
          (.counter u.beneficiary week.identity) (some plan.counter.item))

/-- A completion is committed. -/
inductive Completion.Commits (env : Env) (c : Completion) (t : Table Key Row) :
    Table Key Row → Prop where
  | mk (current : EffectRow) (week : WeekFields) (counter : LedgerCounter c.beneficiary week)
      (observed : ObservedEffect) (item : EvidenceRow) (evidence : ProviderUsageEvidence)
      (plan : Completion.Plan)
      (effect : t.row (.effect c.beneficiary c.effect) = some current)
      (state : current.state = .observed)
      (week_of : current.weekIdentity = week.identity)
      (stored : t.row (.counter c.beneficiary week.identity) = some counter.counter.item)
      (observed_as : current.observed = some observed)
      (usage : t.row (.providerUsage c.beneficiary observed.evidenceId) = some item)
      (read : evidenceFromItem item = .ok evidence)
      (planned : c.Planned env current week counter evidence plan) :
      Commits env c t ((t.set (.effect c.beneficiary c.effect) (some plan.effect)).set
        (.counter c.beneficiary week.identity) (some plan.counter.item))

theorem Reserve.apply_operations (v : Reserve env) (generation : Version) (plan : Reserve.Plan)
    (t : Table Key Row) :
    t.apply (v.operations generation plan) =
      (t.set (.effect v.beneficiary v.effect) (some plan.effect)).set
        (.counter v.beneficiary v.week.identity) (some plan.counter.item) := by
  simp only [operations, Table.apply, fenceCheck, Write.check, Write.putNew, Write.put, id_eq,
    Table.set_row_self]

theorem Usage.apply_operations (u : Usage) (current : EffectRow) (week : WeekFields)
    (plan : Usage.Plan) (t : Table Key Row) :
    t.apply (u.operations env current week plan) =
      ((t.set (.providerUsage u.beneficiary (env.evidenceId u.effect)) (some plan.evidence)).set
        (.effect u.beneficiary u.effect) (some plan.effect)).set
          (.counter u.beneficiary week.identity) (some plan.counter.item) := by
  simp only [operations, Table.apply, fenceCheck, putReplace, Write.check, Write.putNew,
    Write.put, id_eq, Table.set_row_self]

theorem Completion.apply_operations (c : Completion) (current : EffectRow) (week : WeekFields)
    (plan : Completion.Plan) (t : Table Key Row) :
    t.apply (c.operations current week plan) =
      (t.set (.effect c.beneficiary c.effect) (some plan.effect)).set
        (.counter c.beneficiary week.identity) (some plan.counter.item) := by
  simp only [operations, Table.apply, fenceCheck, putReplace, Write.check, Write.put, id_eq,
    Table.set_row_self]

/-- A release records the usage of an effect and gives its reservation back, in
two commits. -/
inductive Release.Commits (env : Env) (v : Release) (t t' : Table Key Row) : Prop where
  | usage (input output : Count) (h : (v.usage env input output).Commits env t t')
  | restore (h : v.completion.Commits env t t')

def Checked.Commits : Checked env → Table Key Row → Table Key Row → Prop
  | .reserve v => v.Commits
  | .usage u => u.Commits env
  | .completion c => c.Commits env
  | .release v => v.Commits env

/-- What a call may commit. -/
def Call.Commits (call : Call env) (t t' : Table Key Row) : Prop :=
  ∃ x, call.checked = .ok x ∧ x.Commits t t'

/-- A property of every reservation, observation and completion is one of every
commit. -/
theorem Call.Commits.rec_on {P : Prop} {call : Call env} {t t' : Table Key Row}
    (h : call.Commits t t') (hreserve : ∀ v : Reserve env, v.Commits t t' → P)
    (husage : ∀ u : Usage, u.Commits env t t' → P)
    (hcompletion : ∀ c : Completion, c.Commits env t t' → P) : P := by
  obtain ⟨x, -, hx⟩ := h
  cases x with
  | reserve v => exact hreserve v hx
  | usage u => exact husage u hx
  | completion c => exact hcompletion c hx
  | release v =>
      cases hx with
      | usage input output h => exact husage _ h
      | restore h => exact hcompletion _ h

end Stoa.Allowance
