import Stoa.Model.Allowance

/-! # What the ledger reads back

Rows that are sound are accepted by every check the code makes of them. -/

namespace Stoa.Allowance

open RowStore

variable {env : Env}

/-! ## Numbers -/

theorem storedCount_of {value : ℤ} (h : IsCount value) (field : String) :
    storedCount value field = .ok ⟨value, h⟩ := dif_pos h

theorem storedPositive_of {value : ℤ} (h : IsPositive value) (field : String) :
    storedPositive value field = .ok ⟨value, h⟩ := dif_pos h

/-! ## Effects -/

/-- The attributes from which a reservation can be rebuilt. -/
structure ReservedEffect.Readable (env : Env) (item : ReservedEffect) : Prop where
  allowanceVersion : IsPositive item.allowanceVersion
  inputTokens : IsCount item.reservationInputTokens
  outputTokens : IsCount item.reservationOutputTokens
  stateVersion : IsPositive item.reservationStateVersion
  week : item.toWeekFields.IsZurichWeek env.zone

theorem ReservedEffect.Readable.isoYear {item : ReservedEffect} (h : item.Readable env) :
    IsPositive item.isoYear :=
  ⟨h.week.iso_year.1, h.week.iso_year.2.trans (by decide)⟩

theorem ReservedEffect.Readable.isoWeek {item : ReservedEffect} (h : item.Readable env) :
    IsPositive item.isoWeek :=
  ⟨h.week.iso_week.1, h.week.iso_week.2.trans (by decide)⟩

/-- The reservation an effect records. -/
def ReservedEffect.reservation (item : ReservedEffect) (h : item.Readable env) :
    AllowanceReservation env.zone where
  reservationId := item.reservationId
  effectId := item.effectId
  beneficiaryId := item.beneficiaryId
  planId := item.planId
  allowanceVersion := ⟨item.allowanceVersion, h.allowanceVersion⟩
  week := ⟨item.toWeekFields, h.week⟩
  inputTokens := ⟨item.reservationInputTokens, h.inputTokens⟩
  outputTokens := ⟨item.reservationOutputTokens, h.outputTokens⟩
  stateVersion := ⟨item.reservationStateVersion, h.stateVersion⟩
  expiresAt := item.expiresAt

theorem modelValidate_of {zone : Zone} {w : WeekFields} (h : w.IsZurichWeek zone) :
    ZurichWeek.modelValidate zone w = .ok ⟨w, h⟩ := dif_pos h

theorem reservationFromEffect_of {item : ReservedEffect} (h : item.Readable env) :
    reservationFromEffect env item = .ok (item.reservation h) := by
  simp only [reservationFromEffect, storedPositive_of h.allowanceVersion,
    storedPositive_of h.isoYear, storedPositive_of h.isoWeek, storedCount_of h.inputTokens,
    storedCount_of h.outputTokens, storedPositive_of h.stateVersion, modelValidate_of h.week]
  rfl

/-- What an effect carries in each of its states. -/
def EffectRow.Phase (row : EffectRow) : Prop :=
  match row.state with
  | .reserved => row.stateVersion = 1 ∧ row.observed = none ∧ row.finalized = none
  | .observed => row.stateVersion = 2 ∧ row.observed.isSome ∧ row.finalized = none
  | .finalized => row.stateVersion = 3 ∧ row.observed.isSome ∧
      ∃ done, row.finalized = some done ∧ done.flags.delivered = true ∧
        IsCount done.finalizedInputTokens ∧ IsCount done.finalizedOutputTokens ∧
        done.restoredInputTokens = 0 ∧ done.restoredOutputTokens = 0
  | .restored => row.stateVersion = 3 ∧ row.observed.isSome ∧
      ∃ done, row.finalized = some done ∧ done.flags.delivered = false ∧
        IsCount done.restoredInputTokens ∧ IsCount done.restoredOutputTokens ∧
        done.finalizedInputTokens = 0 ∧ done.finalizedOutputTokens = 0

/-- An effect as the ledger stores it under its key. -/
structure EffectRow.Sound (env : Env) (beneficiary : Text) (effect : Sha256)
    (row : EffectRow) : Prop where
  entityType : row.entityType = "allowance_effect"
  schemaVersion : row.schemaVersion = ALLOWANCE_EFFECT_SCHEMA_VERSION
  beneficiaryId : row.beneficiaryId = beneficiary
  effectId : row.effectId = effect
  readable : row.toReservedEffect.Readable env
  accountFenceGeneration : IsPositive row.accountFenceGeneration
  observed : ∀ o, row.observed = some o →
    IsCount o.providerInputTokens ∧ IsCount o.providerOutputTokens
  phase : row.Phase

theorem EffectRow.Phase.stateVersion {row : EffectRow} (h : row.Phase) :
    IsPositive row.stateVersion := by
  unfold EffectRow.Phase at h
  split at h <;> rw [h.1] <;> decide

theorem validatedEffect_of {beneficiary : Text} {effect : Sha256} {row : EffectRow}
    (h : row.Sound env beneficiary effect) :
    validatedEffect env row beneficiary effect = .ok row := by
  simp only [validatedEffect, h.entityType, h.schemaVersion, h.beneficiaryId, h.effectId,
    ne_eq, not_true_eq_false, or_self, ite_false, storedPositive_of h.phase.stateVersion,
    storedPositive_of h.accountFenceGeneration, storedPositive_of h.readable.isoYear,
    storedPositive_of h.readable.isoWeek, reservationFromEffect_of h.readable]
  rfl

/-- A sound effect is classified by its reservation's digest alone. -/
theorem classifyReservation_of {beneficiary : Text} {effect : Sha256} {row : EffectRow}
    (h : row.Sound env beneficiary effect) (payloadDigest : Sha256) :
    classifyReservation env row beneficiary effect payloadDigest =
      ⟨if row.reservationPayloadDigest = payloadDigest then .replayed else .idempotencyConflict,
        some (row.reservation h.readable)⟩ := by
  simp only [classifyReservation, validatedEffect_of h, reservationFromEffect_of h.readable]
  split <;> rfl

theorem validatedEffect_eq_ok {beneficiary : Text} {effect : Sha256} {row current : EffectRow}
    (h : validatedEffect env row beneficiary effect = .ok current) : current = row := by
  simp only [validatedEffect] at h
  split at h
  · cases h
  · simp only [bind_eq_ok] at h
    obtain ⟨-, -, -, -, -, -, -, -, -, -, heq⟩ := h
    exact (Except.ok.inj heq).symm

/-! ## Evidence -/

structure EvidenceRow.Sound (row : EvidenceRow) : Prop where
  entityType : row.entityType = "provider_usage_evidence"
  schemaVersion : row.schemaVersion = PROVIDER_USAGE_EVIDENCE_SCHEMA_VERSION
  providerCostRetained : row.providerCostRetained = true
  inputTokens : IsCount row.inputTokens
  outputTokens : IsCount row.outputTokens

/-- The evidence a row records. -/
def EvidenceRow.evidence (row : EvidenceRow) (h : row.Sound) : ProviderUsageEvidence where
  evidenceId := row.evidenceId
  effectId := row.effectId
  providerRequestIdDigest := row.providerRequestIdDigest
  modelIdDigest := row.modelIdDigest
  inputTokens := ⟨row.inputTokens, h.inputTokens⟩
  outputTokens := ⟨row.outputTokens, h.outputTokens⟩
  providerCostRetained := row.providerCostRetained
  observedAt := row.observedAt

theorem evidenceFromItem_of {row : EvidenceRow} (h : row.Sound) :
    evidenceFromItem row = .ok (row.evidence h) := by
  simp only [evidenceFromItem, h.entityType, h.schemaVersion, h.providerCostRetained, ne_eq,
    not_true_eq_false, or_self, ite_false, storedCount_of h.inputTokens,
    storedCount_of h.outputTokens]
  simp only [EvidenceRow.evidence, h.providerCostRetained]
  rfl

theorem classifyProviderEvidence_of {row : EvidenceRow} (h : row.Sound)
    (payloadDigest : Sha256) :
    classifyProviderEvidence row payloadDigest =
      ⟨if row.providerPayloadDigest = payloadDigest then .replayed else .idempotencyConflict,
        some (row.evidence h)⟩ := by
  simp only [classifyProviderEvidence, evidenceFromItem_of h]
  split <;> rfl

theorem evidenceFromItem_eq_ok {row : EvidenceRow} {evidence : ProviderUsageEvidence}
    (h : evidenceFromItem row = .ok evidence) :
    evidence.inputTokens.val = row.inputTokens ∧
      evidence.outputTokens.val = row.outputTokens := by
  simp only [evidenceFromItem] at h
  split at h
  · cases h
  split at h
  · cases h
  · simp only [bind_eq_ok, storedCount] at h
    obtain ⟨a, ha, b, hb, heq⟩ := h
    split at ha <;> cases ha
    split at hb <;> cases hb
    cases heq
    exact ⟨rfl, rfl⟩

/-! ## Finalizations -/

/-- A settled effect can be read back as its finalization. -/
theorem EffectRow.Phase.finalization {row : EffectRow} (h : row.Phase)
    (hs : Completion.IsSettled row.state) :
    ∃ done f, row.finalized = some done ∧ finalizationFromEffect row = .ok f := by
  have hversion := h.stateVersion
  unfold EffectRow.Phase at h
  rcases hs with hs | hs <;> simp only [hs] at h
  · obtain ⟨-, hobserved, done, hdone, hdelivered, hin, hout, hrin, hrout⟩ := h
    obtain ⟨observed, hobserved⟩ := Option.isSome_iff_exists.mp hobserved
    have hzero : IsCount 0 := by decide
    simp only [finalizationFromEffect, hdone, hobserved, storedCount_of hin,
      storedCount_of hout, hrin, hrout, storedCount_of hzero, storedPositive_of hversion,
      hdelivered]
    exact ⟨done, _, rfl, rfl⟩
  · obtain ⟨-, hobserved, done, hdone, hdelivered, hrin, hrout, hin, hout⟩ := h
    obtain ⟨observed, hobserved⟩ := Option.isSome_iff_exists.mp hobserved
    have hzero : IsCount 0 := by decide
    simp only [finalizationFromEffect, hdone, hobserved, storedCount_of hrin,
      storedCount_of hrout, hin, hout, storedCount_of hzero, storedPositive_of hversion,
      hdelivered]
    exact ⟨done, _, rfl, rfl⟩

theorem classifyFinalization_of {row : EffectRow} {done : FinalizedEffect}
    {f : AllowanceFinalization} (hdone : row.finalized = some done)
    (hf : finalizationFromEffect row = .ok f) (payloadDigest : Sha256) :
    classifyFinalization row payloadDigest =
      ⟨if done.finalizationPayloadDigest = payloadDigest then .replayed
        else .idempotencyConflict, some f⟩ := by
  simp only [classifyFinalization, hf, hdone]
  split <;> rfl

/-! ## Counters -/

theorem readCounter_eq_ok {beneficiary : Text} {week : WeekFields}
    {answer : Option (Option (CounterRow TokenField TokenFields))}
    {counter : Option (LedgerCounter beneficiary week)}
    (h : readCounter beneficiary week answer = .ok counter) :
    answer = some (counter.map fun c => c.counter.item) := by
  unfold readCounter at h
  split at h
  · cases h
  · rename_i hread
    cases h
    exact readBack_eq_ok hread
  · rename_i c hread
    have hanswer := readBack_eq_ok hread
    unfold checkLedger at h
    split at h
    · cases h
    · repeat' split at h
      all_goals cases h
      exact hanswer

end Stoa.Allowance
