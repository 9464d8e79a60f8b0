import Stoa.Verification.Allowance.Safety
import Stoa.Store.Solo

/-! # A reservation that runs alone

A stored counter can be read again as long as it is written for one week. A
reservation that fits what it finds there, and is not older, is admitted. -/

namespace Stoa.Allowance

open RowStore

variable {env : Env}

/-! ## Counters that can be read -/

theorem readBack_of {beneficiary : Text} {week : WeekFields}
    (c : Counter TOKENS beneficiary.val week TokenFields) :
    readBack TOKENS beneficiary.val week (some (some c.item)) = .ok (some c) := by
  have hvalid : validate TOKENS beneficiary.val week c.item = .ok c := validate_eq_ok.mpr rfl
  rw [readBack, hvalid]
  rfl

theorem checkLedger_of {beneficiary : Text} {week : WeekFields} (c : LedgerCounter beneficiary week) :
    checkLedger c.counter = .ok c := by
  unfold checkLedger
  split
  · rename_i hnone
    cases hnone.symm.trans c.fields_eq
  · rename_i fields hfields
    cases hfields.symm.trans c.fields_eq
    rw [dif_pos c.budgetInputTokens, dif_pos c.budgetOutputTokens, dif_pos c.allowanceVersion,
      dif_pos c.accountFenceGeneration, dif_pos c.createdAt]

theorem readCounter_of {beneficiary : Text} {week : WeekFields} (c : LedgerCounter beneficiary week) :
    readCounter beneficiary week (some (some c.counter.item)) = .ok (some c) := by
  rw [readCounter, readBack_of]
  dsimp only
  rw [checkLedger_of]
  rfl

/-- The row can be read as the counter of the week. -/
def IsCounterOf (beneficiary : Text) (week : WeekFields)
    (row : CounterRow TokenField TokenFields) (fields : TokenFields) : Prop :=
  ∃ c : LedgerCounter beneficiary week, c.counter.item = row ∧ c.fields = fields

/-! ## What a commit makes of a counter -/

/-- What a commit stores as the counter of a week. -/
inductive Call.Counts (call : Call env) (t : Table Key Row) (beneficiary : Text) (week : String) :
    CounterRow TokenField TokenFields → Prop where
  | reserved (v : Reserve env) (generation : Version)
      (counter : Option (LedgerCounter v.beneficiary v.week.toWeekFields)) (plan : Reserve.Plan)
      (checked : call.checked = .ok (.reserve v)) (beneficiary_eq : v.beneficiary = beneficiary)
      (week_eq : v.week.identity = week)
      (stored : t.row (.counter beneficiary week) = counter.map fun c => c.counter.item)
      (planned : v.Planned generation counter plan) :
      Counts call t beneficiary week plan.counter.item
  | recounted (fields : WeekFields) (counter : LedgerCounter beneficiary fields)
      (counts : List (TokenField × ℤ)) (now : Instant) (w : CounterWrite TokenField TokenFields)
      (week_eq : fields.identity = week)
      (stored : t.row (.counter beneficiary week) = some counter.counter.item)
      (written : write TOKENS beneficiary.val fields (some counter.counter) counts none now =
        .ok w) :
      Counts call t beneficiary week w.item

theorem Usage.Commits.counts {call : Call env} {u : Usage} {t t' : Table Key Row}
    (h : u.Commits env t t') (b : Text) (w : String) :
    t'.row (.counter b w) = t.row (.counter b w) ∨
      ∃ row, t'.row (.counter b w) = some row ∧ call.Counts t b w row := by
  cases h with
  | mk current week counter plan effect reserved week_of stored absent planned =>
      by_cases hk : Key.counter b w = .counter u.beneficiary week.identity
      · obtain ⟨rfl, rfl⟩ := Key.counter.inj hk
        exact .inr ⟨_, Table.row_set_self _ _ _, .recounted week counter _ _ _ rfl stored
          planned.written⟩
      · left
        rw [Table.row_set_of_ne _ _ hk, Table.row_set_of_ne _ _ (by simp),
          Table.row_set_of_ne _ _ (by simp)]

theorem Completion.Commits.counts {call : Call env} {c : Completion} {t t' : Table Key Row}
    (h : c.Commits env t t') (b : Text) (w : String) :
    t'.row (.counter b w) = t.row (.counter b w) ∨
      ∃ row, t'.row (.counter b w) = some row ∧ call.Counts t b w row := by
  cases h with
  | mk current week counter observed item evidence plan effect state week_of stored observed_as
      usage read planned =>
      by_cases hk : Key.counter b w = .counter c.beneficiary week.identity
      · obtain ⟨rfl, rfl⟩ := Key.counter.inj hk
        exact .inr ⟨_, Table.row_set_self _ _ _, .recounted week counter _ _ _ rfl stored
          planned.written⟩
      · left
        rw [Table.row_set_of_ne _ _ hk, Table.row_set_of_ne _ _ (by simp)]

/-- A counter that a commit changes is written by a reservation, or recounted. -/
theorem Call.Commits.counts {call : Call env} {t t' : Table Key Row} (h : call.Commits t t')
    (b : Text) (w : String) : t'.row (.counter b w) = t.row (.counter b w) ∨
      ∃ row, t'.row (.counter b w) = some row ∧ call.Counts t b w row := by
  obtain ⟨x, hx, hc⟩ := h
  cases x with
  | reserve v =>
      cases hc with
      | mk generation counter plan absent stored planned =>
          by_cases hk : Key.counter b w = .counter v.beneficiary v.week.identity
          · obtain ⟨rfl, rfl⟩ := Key.counter.inj hk
            exact .inr ⟨_, Table.row_set_self _ _ _,
              .reserved v generation counter plan hx rfl rfl stored planned⟩
          · left
            rw [Table.row_set_of_ne _ _ hk, Table.row_set_of_ne _ _ (by simp)]
  | usage u => exact hc.counts b w
  | completion c => exact hc.counts b w
  | release v =>
      cases hc with
      | usage input output h => exact h.counts b w
      | restore h => exact h.counts b w

/-! ## Counters stay readable -/

theorem write_item {beneficiary : Text} {week : WeekFields}
    (previous : Option (LedgerCounter beneficiary week)) {counts : List (TokenField × ℤ)}
    {fields : Option TokenFields} {now : Instant} {w : CounterWrite TokenField TokenFields}
    (h : write TOKENS beneficiary.val week (previous.map (·.counter)) counts fields now = .ok w) :
    w.item.createdAt.isSome := by
  unfold write at h
  split at h
  · cases h
  · cases h
    cases previous with
    | none => rfl
    | some c => exact c.createdAt

theorem Reserve.Planned.isCounterOf {v : Reserve env} {generation : Version}
    {counter : Option (LedgerCounter v.beneficiary v.week.toWeekFields)} {plan : Reserve.Plan}
    (h : v.Planned generation counter plan) :
    IsCounterOf v.beneficiary v.week.toWeekFields plan.counter.item {
      planId := v.budget.planId
      allowanceVersion := v.budget.allowanceVersion.val
      budgetInputTokens := v.budget.inputTokens.val
      budgetOutputTokens := v.budget.outputTokens.val
      accountFenceGeneration := generation.val } := by
  have hw := write_written h.written
  have hversion : IsPositive plan.counter.item.stateVersion := hw.version ▸ h.version
  let c : Counter TOKENS v.beneficiary.val v.week.toWeekFields TokenFields :=
    ⟨plan.counter.item, hw.shape, fun f hf => hw.counts_valid hf, hversion⟩
  exact ⟨⟨c, _, hw.fields, v.budget.tokens_positive.1, v.budget.tokens_positive.2,
    v.budget.allowanceVersion.property, generation.property, write_item _ h.written⟩, rfl, rfl⟩

/-- A recounted counter keeps what the ledger stores beside the counts, as long as
its version is in range. -/
theorem IsCounterOf.recounted {beneficiary : Text} {week week' : WeekFields}
    {row : CounterRow TokenField TokenFields} {fields : TokenFields}
    (h : IsCounterOf beneficiary week row fields) {counter : LedgerCounter beneficiary week'}
    (hrow : counter.counter.item = row) {counts : List (TokenField × ℤ)} {now : Instant}
    {w : CounterWrite TokenField TokenFields}
    (hwritten : write TOKENS beneficiary.val week' (some counter.counter) counts none now = .ok w)
    (hversion : IsPositive w.item.stateVersion) :
    IsCounterOf beneficiary week w.item fields := by
  obtain ⟨c, rfl, rfl⟩ := h
  have hw := write_written hwritten
  have hshape : w.item.Shape TOKENS beneficiary.val week := by
    obtain ⟨-, -, -, hidentity, hstart, hend⟩ := counter.counter.shape
    obtain ⟨-, -, -, hidentity', hstart', hend'⟩ := c.counter.shape
    obtain ⟨hentity, hschema, hscope, hidentityw, hstartw, hendw⟩ := hw.shape
    rw [hrow] at hidentity hstart hend
    exact ⟨hentity, hschema, hscope, hidentityw.trans (hidentity.symm.trans hidentity'),
      hstartw.trans (hstart.symm.trans hstart'), hendw.trans (hend.symm.trans hend')⟩
  have hfields : w.item.fields = some c.fields := by
    rw [hw.fields]
    exact (congrArg CounterRow.fields hrow).trans c.fields_eq
  let c' : Counter TOKENS beneficiary.val week TokenFields :=
    ⟨w.item, hshape, fun f hf => hw.counts_valid hf, hversion⟩
  exact ⟨⟨c', c.fields, hfields, c.budgetInputTokens, c.budgetOutputTokens, c.allowanceVersion,
    c.accountFenceGeneration, write_item (some counter) hwritten⟩, rfl, rfl⟩

/-- What a reservation stores beside the counts. -/
def Reserve.fields (v : Reserve env) (generation : ℤ) : TokenFields where
  planId := v.budget.planId
  allowanceVersion := v.budget.allowanceVersion.val
  budgetInputTokens := v.budget.inputTokens.val
  budgetOutputTokens := v.budget.outputTokens.val
  accountFenceGeneration := generation

/-- The counter of the week can be read, unless its version has run out, and `P`
holds of what is stored beside its counts. -/
def CounterHolds (beneficiary : Text) (week : WeekFields) (P : TokenFields → Prop)
    (t : Table Key Row) : Prop :=
  ∀ row, t.row (.counter beneficiary week.identity) = some row → IsPositive row.stateVersion →
    ∃ fields, IsCounterOf beneficiary week row fields ∧ P fields

theorem CounterHolds.mono {beneficiary : Text} {week : WeekFields} {P P' : TokenFields → Prop}
    {t : Table Key Row} (h : CounterHolds beneficiary week P t) (hP : ∀ fields, P fields → P' fields) :
    CounterHolds beneficiary week P' t := by
  intro row hrow hversion
  obtain ⟨fields, hcounter, hfields⟩ := h row hrow hversion
  exact ⟨fields, hcounter, hP fields hfields⟩

/-- The counter stays so, if every reservation of the week brings it along. -/
theorem CounterHolds.commits {beneficiary : Text} {week : WeekFields} {P : TokenFields → Prop}
    {call : Call env} {t t' : Table Key Row} (h : CounterHolds beneficiary week P t)
    (hc : call.Commits t t')
    (hreserve : ∀ v : Reserve env, call.checked = .ok (.reserve v) → v.beneficiary = beneficiary →
      v.week.identity = week.identity →
        v.week.toWeekFields = week ∧ ∀ generation, P (v.fields generation)) :
    CounterHolds beneficiary week P t' := by
  intro row hrow hversion
  rcases hc.counts beneficiary week.identity with hsame | ⟨row', hrow', hcounts⟩
  · exact h row (hsame ▸ hrow) hversion
  cases hrow.symm.trans hrow'
  cases hcounts with
  | reserved v generation counter plan checked beneficiary_eq week_eq stored planned =>
      obtain ⟨hweek, hfields⟩ := hreserve v checked beneficiary_eq week_eq
      subst beneficiary_eq
      exact ⟨v.fields generation.val, hweek ▸ planned.isCounterOf, hfields generation.val⟩
  | recounted fields counter counts now w week_eq stored written =>
      obtain ⟨found, hcounter, hfound⟩ := h _ stored counter.counter.version
      exact ⟨found, hcounter.recounted rfl written hversion, hfound⟩

/-! ## Admission -/

/-- The request fits into what its budget leaves of the week, for an effect that
is not known yet, and the account's fence is the one that it names, if any. -/
structure Reserve.Fits (v : Reserve env) (t : Table Key Row) : Prop where
  unknown : t.row (.effect v.beneficiary v.effect) = none
  fence : ∃ generation, requireActiveAccountFence (t.row (.accountFence v.beneficiary)) none =
    some generation ∧ IsPositive generation ∧ ∀ g, v.accountFenceGeneration = some g → g = generation
  input : ledgerCount t v.beneficiary v.week.identity .finalizedInputTokens +
    ledgerCount t v.beneficiary v.week.identity .reservedInputTokens + v.requestedInput.val ≤
      v.budget.inputTokens.val
  output : ledgerCount t v.beneficiary v.week.identity .finalizedOutputTokens +
    ledgerCount t v.beneficiary v.week.identity .reservedOutputTokens + v.requestedOutput.val ≤
      v.budget.outputTokens.val
  /-- There is a next version for the counter. -/
  version : ∀ row, t.row (.counter v.beneficiary v.week.identity) = some row →
    1 ≤ row.stateVersion ∧ row.stateVersion < MAX_EXACT_COUNT

/-- The stored allowance version is not above the budget's, and the same version
means the same plan and budget. -/
def Reserve.IsCurrent (v : Reserve env) (fields : TokenFields) : Prop :=
  fields.allowanceVersion ≤ v.budget.allowanceVersion.val ∧
    (fields.allowanceVersion = v.budget.allowanceVersion.val → fields.planId = v.budget.planId ∧
      fields.budgetInputTokens = v.budget.inputTokens.val ∧
      fields.budgetOutputTokens = v.budget.outputTokens.val)

theorem ledgerCount_eq {t : Table Key Row} {beneficiary : Text} {week : WeekFields}
    {counter : Option (LedgerCounter beneficiary week)}
    (h : t.row (.counter beneficiary week.identity) = counter.map fun c => c.counter.item)
    (field : TokenField) :
    ledgerCount t beneficiary week.identity field = counter.elim 0 fun c => c.count field := by
  rw [ledgerCount, h]
  cases counter <;> rfl

/-- A plan is made for a reservation that fits and is current. -/
theorem Reserve.plan_eq_ok {v : Reserve env} {t : Table Key Row} (hfits : v.Fits t)
    {counter : Option (LedgerCounter v.beneficiary v.week.toWeekFields)}
    (hstored : t.row (.counter v.beneficiary v.week.identity) =
      counter.map fun c => c.counter.item)
    (hcurrent : ∀ c, counter = some c → v.IsCurrent c.fields) (generation : Version) :
    ∃ plan, v.plan generation counter = .ok plan := by
  have hin := hfits.input
  have hout := hfits.output
  simp only [ledgerCount_eq hstored] at hin hout
  have hcounts : ∀ field, IsCount (counter.elim 0 fun c => c.count field) := by
    intro field
    cases counter with
    | none => exact (by decide : IsCount 0)
    | some c => exact c.counter.counts field (TOKENS_countFields field)
  have hbudget := v.budget.inputTokens.property.2
  have hbudget' := v.budget.outputTokens.property.2
  have hversion : IsPositive (previousVersion (counter.map (·.counter)) + 1) := by
    cases counter with
    | none => exact (by decide : IsPositive (0 + 1))
    | some c =>
        have hroom : 1 ≤ c.counter.item.stateVersion ∧
            c.counter.item.stateVersion < MAX_EXACT_COUNT := hfits.version _ hstored
        constructor <;> simp only [Option.map_some, previousVersion, Option.elim_some] <;> omega
  have hin0 := (hcounts .finalizedInputTokens).1
  have hin1 := (hcounts .reservedInputTokens).1
  have hout0 := (hcounts .finalizedOutputTokens).1
  have hout1 := (hcounts .reservedOutputTokens).1
  have hrequest := v.requestedInput.property.1
  have hrequest' := v.requestedOutput.property.1
  have hstale : ¬ (counter.any fun c =>
      v.budget.allowanceVersion.val < c.fields.allowanceVersion) = true := by
    cases counter with
    | none => simp
    | some c => simpa using (hcurrent c rfl).1
  have hother : ¬ (counter.any fun c => v.budget.allowanceVersion.val = c.fields.allowanceVersion ∧
      (c.fields.planId ≠ v.budget.planId ∨ c.fields.budgetInputTokens ≠ v.budget.inputTokens.val ∨
        c.fields.budgetOutputTokens ≠ v.budget.outputTokens.val)) = true := by
    cases counter with
    | none => simp
    | some c =>
        simp only [Option.any_some, decide_eq_true_eq]
        rintro ⟨hsame, hdiffers⟩
        obtain ⟨hplan, hinput, houtput⟩ := (hcurrent c rfl).2 hsame.symm
        rcases hdiffers with hne | hne | hne
        · exact hne hplan
        · exact hne hinput
        · exact hne houtput
  let counts : List (TokenField × ℤ) :=
    [(.reservedInputTokens, (counter.elim 0 fun c => c.count .reservedInputTokens) +
        v.requestedInput.val), (.reservedOutputTokens,
      (counter.elim 0 fun c => c.count .reservedOutputTokens) + v.requestedOutput.val)]
  obtain ⟨w, hw⟩ : ∃ w, write TOKENS v.beneficiary.val v.week.toWeekFields
      (counter.map (·.counter)) counts (some (v.fields generation.val)) v.now = .ok w :=
    write_eq_ok (counter.map (·.counter))
      (by simp only [counts, List.mem_cons, List.not_mem_nil, or_false, forall_eq_or_imp, forall_eq]
          exact ⟨⟨by omega, by omega⟩, ⟨by omega, by omega⟩⟩)
      (some (v.fields generation.val)) v.now
  simp only [plan, fields, counts] at hw ⊢
  rw [if_neg (by omega), if_neg hstale, if_neg hother, if_neg (by omega),
    if_neg (not_not.mpr hversion), hw]
  exact ⟨_, rfl⟩

/-- What is written over the counter that was read is admitted. -/
theorem Reserve.Planned.admits {v : Reserve env} {t : Table Key Row} (hfits : v.Fits t)
    {generation : Version}
    (hfence : requireActiveAccountFence (t.row (.accountFence v.beneficiary)) none =
      some generation.val)
    {counter : Option (LedgerCounter v.beneficiary v.week.toWeekFields)} {plan : Reserve.Plan}
    (h : v.Planned generation counter plan)
    (hstored : t.row (.counter v.beneficiary v.week.identity) =
      counter.map fun c => c.counter.item) : t.Admits (v.operations generation plan) := by
  refine ⟨by simp [operations, fenceCheck, Write.check, Write.putNew, Write.put], ?_⟩
  simp only [operations, List.mem_cons, List.not_mem_nil, or_false, forall_eq_or_imp, forall_eq]
  refine ⟨fence_generation hfence, Option.isNone_iff_eq_none.mpr hfits.unknown, ?_⟩
  have hwritten := h.written
  unfold write at hwritten
  split at hwritten
  · cases hwritten
  · simp only [Except.ok.injEq] at hwritten
    rw [← hwritten]
    simp only [Write.put]
    rw [hstored]
    cases counter with
    | none => rfl
    | some c => simp

theorem Reserve.attempt_alone {v : Reserve env} {t : Table Key Row} (hfits : v.Fits t)
    {generation : Version}
    (hfence : requireActiveAccountFence (t.row (.accountFence v.beneficiary)) none =
      some generation.val)
    (hcounter : CounterHolds v.beneficiary v.week.toWeekFields v.IsCurrent t) :
    ∃ reservation, ((v.attempt generation).alone t).1 =
      some (.ok ⟨.admitted, some reservation⟩) := by
  have hread : ∃ counter, readCounter v.beneficiary v.week.toWeekFields
        (some (t.row (.counter v.beneficiary v.week.identity))) = .ok counter ∧
      ∀ c, counter = some c → v.IsCurrent c.fields := by
    cases hrow : t.row (.counter v.beneficiary v.week.identity) with
    | none => exact ⟨none, rfl, fun c hc => absurd hc (Option.some_ne_none c).symm⟩
    | some row =>
        obtain ⟨hlow, hhigh⟩ := hfits.version row hrow
        obtain ⟨_, ⟨c, rfl, rfl⟩, hcurrent⟩ := hcounter row hrow ⟨hlow, hhigh.le⟩
        exact ⟨some c, readCounter_of c, fun _ hc => Option.some_inj.mp hc ▸ hcurrent⟩
  obtain ⟨counter, hread, hcurrent⟩ := hread
  have hstored := Option.some_inj.mp (readCounter_eq_ok hread)
  obtain ⟨plan, hplan⟩ := v.plan_eq_ok hfits hstored hcurrent generation
  have hplanned := Reserve.planned hplan
  have hreservation := reservationFromEffect_of (hplanned.sound).readable
  simp only [attempt, Program.alone, hfits.unknown, hread, hplan,
    if_pos (hplanned.admits hfits hfence hstored), hreservation]
  exact ⟨_, rfl⟩

theorem Reserve.attempts_alone {v : Reserve env} {t : Table Key Row} (hfits : v.Fits t)
    {generation : ℤ} (hpositive : IsPositive generation)
    (hfence : requireActiveAccountFence (t.row (.accountFence v.beneficiary)) none =
      some generation)
    (hcounter : CounterHolds v.beneficiary v.week.toWeekFields v.IsCurrent t) :
    ∃ reservation, ((v.attempts generation).alone t).1 = .ok ⟨.admitted, some reservation⟩ := by
  have hgeneration : exactPositive generation "account_fence_generation" =
      .ok ⟨generation, hpositive⟩ := dif_pos hpositive
  have hgranted : requireActiveAccountFence (t.row (.accountFence v.beneficiary)) none =
      some (⟨generation, hpositive⟩ : Version).val := hfence
  obtain ⟨reservation, hadmitted⟩ := v.attempt_alone hfits hgranted hcounter
  refine ⟨reservation, ?_⟩
  rw [attempts, hgeneration]
  simp only [DEFAULT_ATTEMPTS, Program.retry, Program.alone_bind, hadmitted]
  rfl

/-- A reservation that fits and is current is admitted when it runs alone. -/
theorem reserve_alone_admitted {r : ReserveRequest env} {v : Reserve env} {t : Table Key Row}
    (hchecked : r.checked = .ok v) (hfits : v.Fits t)
    (hcounter : CounterHolds v.beneficiary v.week.toWeekFields v.IsCurrent t) :
    ∃ reservation, ((reserveAllowance r).alone t).1 = .ok ⟨.admitted, some reservation⟩ := by
  obtain ⟨generation, hfence, hpositive, hsame⟩ := hfits.fence
  obtain ⟨reservation, hadmitted⟩ := v.attempts_alone hfits hpositive hfence hcounter
  refine ⟨reservation, ?_⟩
  have hnonneg : ∀ field, 0 ≤ ledgerCount t v.beneficiary v.week.identity field := by
    intro field
    unfold ledgerCount
    cases hrow : t.row (.counter v.beneficiary v.week.identity) with
    | none => exact le_rfl
    | some row =>
        obtain ⟨hlow, hhigh⟩ := hfits.version row hrow
        obtain ⟨_, ⟨c, rfl, rfl⟩, -⟩ := hcounter row hrow ⟨hlow, hhigh.le⟩
        exact (c.counter.counts field (TOKENS_countFields field)).1
  have hbudget : ¬ v.OverBudget := by
    have hin := hfits.input
    have hout := hfits.output
    have h0 := hnonneg .finalizedInputTokens
    have h1 := hnonneg .reservedInputTokens
    have h2 := hnonneg .finalizedOutputTokens
    have h3 := hnonneg .reservedOutputTokens
    unfold Reserve.OverBudget
    omega
  simp only [reserveAllowance, hchecked, Reserve.run, if_neg hbudget, Program.alone, hfits.unknown]
  cases hgiven : v.accountFenceGeneration with
  | some g =>
      rw [hsame g hgiven]
      exact hadmitted
  | none =>
      simp only [Program.alone, hfence]
      exact hadmitted

end Stoa.Allowance
