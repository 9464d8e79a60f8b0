import Stoa.Verification.Allowance.Conservation

/-! # The life of an effect

An effect is reserved, observed and settled once each; later calls are answered
from what is stored. -/

namespace Stoa.Allowance

open RowStore

variable {env : Env}

/-! ## One step -/

/-- The state stored for an effect. -/
def stateOf (t : Table Key Row) (beneficiary : Text) (effect : Sha256) : Option EffectState :=
  (t.row (.effect beneficiary effect)).map fun row => row.state

/-- How the stored state may change. -/
inductive Advances : Option EffectState → Option EffectState → Prop where
  | stays (x) : Advances x x
  | reserve : Advances none (some .reserved)
  | observe : Advances (some .reserved) (some .observed)
  | finalize : Advances (some .observed) (some .finalized)
  | restore : Advances (some .observed) (some .restored)

theorem stateOf_set_counter (t : Table Key Row) (b b' : Text) (w : String) (e : Sha256)
    (row : CounterRow TokenField TokenFields) :
    stateOf (t.set (.counter b w) (some row)) b' e = stateOf t b' e := by
  rw [stateOf, Table.row_set_of_ne _ _ (by simp), stateOf]

theorem stateOf_set_evidence (t : Table Key Row) (b b' : Text) (x e : Sha256)
    (row : EvidenceRow) :
    stateOf (t.set (.providerUsage b x) (some row)) b' e = stateOf t b' e := by
  rw [stateOf, Table.row_set_of_ne _ _ (by simp), stateOf]

/-- Writing one effect changes no other. -/
theorem stateOf_set_effect {t : Table Key Row} {b : Text} {e : Sha256} (row : EffectRow)
    (h : Advances (stateOf t b e) (some row.state)) (b' : Text) (e' : Sha256) :
    Advances (stateOf t b' e') (stateOf (t.set (.effect b e) (some row)) b' e') := by
  by_cases hk : Key.effect b' e' = .effect b e
  · obtain ⟨rfl, rfl⟩ := Key.effect.inj hk
    rw [stateOf, stateOf, Table.row_set_self]
    exact h
  · rw [stateOf, stateOf, Table.row_set_of_ne _ _ hk]
    exact .stays _

theorem Reserve.Commits.advances {v : Reserve env} {t t' : Table Key Row} (h : v.Commits t t')
    (b : Text) (e : Sha256) : Advances (stateOf t b e) (stateOf t' b e) := by
  cases h with
  | mk generation counter plan absent stored planned =>
    rw [stateOf_set_counter]
    refine stateOf_set_effect _ ?_ b e
    rw [stateOf, absent, planned.effect]
    exact .reserve

theorem Usage.Commits.advances {u : Usage} {t t' : Table Key Row} (h : u.Commits env t t')
    (b : Text) (e : Sha256) : Advances (stateOf t b e) (stateOf t' b e) := by
  cases h with
  | mk current week counter plan effect reserved week_of stored absent planned =>
    rw [stateOf_set_counter]
    have hset := stateOf_set_effect
      (t := t.set (.providerUsage u.beneficiary (env.evidenceId u.effect)) (some plan.evidence))
      (b := u.beneficiary) (e := u.effect) plan.effect ?_ b e
    · rwa [stateOf_set_evidence] at hset
    · rw [stateOf_set_evidence, stateOf, effect, Option.map_some, reserved, planned.effect]
      exact .observe

theorem Completion.Commits.advances {c : Completion} {t t' : Table Key Row}
    (h : c.Commits env t t') (b : Text) (e : Sha256) :
    Advances (stateOf t b e) (stateOf t' b e) := by
  cases h with
  | mk current week counter observed item evidence plan effect state week_of stored observed_as
      usage read planned =>
    rw [stateOf_set_counter]
    refine stateOf_set_effect _ ?_ b e
    rw [stateOf, effect, Option.map_some, state, planned.effect, Completion.nextEffect]
    cases c.restore
    · exact .finalize
    · exact .restore

theorem Call.Commits.advances {c : Call env} {t t' : Table Key Row} (h : c.Commits t t')
    (b : Text) (e : Sha256) : Advances (stateOf t b e) (stateOf t' b e) :=
  h.rec_on (fun _ h' => h'.advances b e) (fun _ h' => h'.advances b e) fun _ h' => h'.advances b e

/-! ## Answers -/

theorem Result.of_reservation {a : Except Failure (ReservationResult env.zone)}
    {x : ReservationResult env.zone} (h : Result.of .reservation a = .reservation x) :
    a = .ok x := by
  cases a with
  | error failure => cases h
  | ok y => rw [Result.reservation.inj h]

theorem Result.of_usage {a : Except Failure ProviderUsageResult} {x : ProviderUsageResult}
    (h : (Result.of .usage a : Result env) = .usage x) : a = .ok x := by
  cases a with
  | error failure => cases h
  | ok y => rw [Result.usage.inj h]

theorem Result.of_finalization {a : Except Failure FinalizationResult} {x : FinalizationResult}
    (h : (Result.of .finalization a : Result env) = .finalization x) : a = .ok x := by
  cases a with
  | error failure => cases h
  | ok y => rw [Result.finalization.inj h]

variable {own : List (Table Key Row × Table Key Row)} {t : Table Key Row}

/-- A reservation of an effect was admitted. -/
def Admitted (b : Text) (e : Sha256) (r : Return Key Row (Call env) (Result env)) : Prop :=
  ∃ v x, r.call.checked = .ok (.reserve v) ∧ v.beneficiary = b ∧ v.effect = e ∧
    r.result = .reservation ⟨.admitted, x⟩

/-- The provider's usage for an effect was recorded. -/
def Recorded (b : Text) (e : Sha256) (r : Return Key Row (Call env) (Result env)) : Prop :=
  ∃ u x, r.call.checked = .ok (.usage u) ∧ u.beneficiary = b ∧ u.effect = e ∧
    r.result = .usage ⟨.recorded, x⟩

/-- An effect was finalized or restored. -/
def Settled (b : Text) (e : Sha256) (r : Return Key Row (Call env) (Result env)) : Prop :=
  ∃ c d x, r.call.checked = .ok (.completion c) ∧ c.beneficiary = b ∧ c.effect = e ∧
    r.result = .finalization ⟨d, x⟩ ∧ (d = .finalized ∨ d = .restored)

/-- A settled effect does not change any more. -/
theorem EffectRow.Extends.eq_of_finalized {b : Text} {e : Sha256} {row row' : EffectRow}
    (h : row.Extends row') (hs : row.Sound env b e) (hs' : row'.Sound env b e)
    (hfinalized : row.finalized.isSome) : row' = row := by
  apply h.same
  have hversion := h.version
  have hphase := hs.phase
  have hphase' := hs'.phase
  unfold EffectRow.Phase at hphase hphase'
  have hrow : row.stateVersion = 3 := by
    split at hphase
    · simp [hphase.2.2] at hfinalized
    · simp [hphase.2.2] at hfinalized
    · exact hphase.1
    · exact hphase.1
  have hle : row'.stateVersion ≤ 3 := by
    split at hphase' <;> rw [hphase'.1] <;> decide
  omega

/-- Each return so far, seen from the table of `s`: an effect is admitted,
recorded and settled by one call each, every admission or replay carried what is
stored, and a call with another digest than the stored one changed nothing. -/
structure ExactlyOnce (s : State Key Row (Call env) (Result env)) : Prop where
  admitted : ∀ b e, ∀ r ∈ s.returned, ∀ r' ∈ s.returned, Admitted b e r → Admitted b e r' → r = r'
  recorded : ∀ b e, ∀ r ∈ s.returned, ∀ r' ∈ s.returned, Recorded b e r → Recorded b e r' → r = r'
  settled : ∀ b e, ∀ r ∈ s.returned, ∀ r' ∈ s.returned, Settled b e r → Settled b e r' → r = r'
  reservation : ∀ r ∈ s.returned, ∀ v d x, r.call.checked = .ok (.reserve v) →
    r.result = .reservation ⟨d, x⟩ → d = .admitted ∨ d = .replayed →
    ∃ row reservation, s.table.row (.effect v.beneficiary v.effect) = some row ∧
      row.reservationPayloadDigest = v.digest ∧
      reservationFromEffect env row.toReservedEffect = .ok reservation ∧ x = some reservation
  evidence : ∀ r ∈ s.returned, ∀ u d x, r.call.checked = .ok (.usage u) →
    r.result = .usage ⟨d, x⟩ → d = .recorded ∨ d = .replayed →
    ∃ row evidence, s.table.row (u.evidenceKey env) = some row ∧
      row.providerPayloadDigest = u.digest env ∧ evidenceFromItem row = .ok evidence ∧
      x = some evidence
  finalization : ∀ r ∈ s.returned, ∀ c d x, r.call.checked = .ok (.completion c) →
    r.result = .finalization ⟨d, x⟩ → d = .finalized ∨ d = .restored ∨ d = .replayed →
    ∃ row done finalization, s.table.row (.effect c.beneficiary c.effect) = some row ∧
      row.finalized = some done ∧ done.finalizationPayloadDigest = c.digest env ∧
      finalizationFromEffect row = .ok finalization ∧ x = some finalization
  other_reservation : ∀ r ∈ s.returned, ∀ v row, r.call.checked = .ok (.reserve v) →
    s.table.row (.effect v.beneficiary v.effect) = some row →
    row.reservationPayloadDigest ≠ v.digest → s.commits r.id = [] ∧
      ∀ d x, r.result = .reservation ⟨d, x⟩ →
        d = .idempotencyConflict ∨ d = .limitExceeded ∨ d = .retryable
  other_evidence : ∀ r ∈ s.returned, ∀ u row, r.call.checked = .ok (.usage u) →
    s.table.row (u.evidenceKey env) = some row →
    row.providerPayloadDigest ≠ u.digest env → s.commits r.id = [] ∧
      ∀ d x, r.result = .usage ⟨d, x⟩ →
        d = .idempotencyConflict ∨ d = .invalidState ∨ d = .retryable
  other_finalization : ∀ r ∈ s.returned, ∀ c row done, r.call.checked = .ok (.completion c) →
    s.table.row (.effect c.beneficiary c.effect) = some row → row.finalized = some done →
    done.finalizationPayloadDigest ≠ c.digest env → s.commits r.id = [] ∧
      ∀ d x, r.result = .finalization ⟨d, x⟩ →
        d = .idempotencyConflict ∨ d = .invalidState ∨ d = .retryable

section Returns

variable {faults : Faults} {s : State Key Row (Call env) (Result env)}

/-- What a returned reservation was answered, seen from the table of `s`. -/
theorem Reserve.Outcome.later {v : Reserve env}
    {a : Except Failure (ReservationResult env.zone)} {u : Table Key Row}
    (hout : v.Outcome a own t) (hkeeps : Keeps t u) : v.Outcome a own u where
  kept := hout.kept.keeps hkeeps
  admitted := hout.admitted
  answered := by
    intro d r hr hd
    obtain ⟨row, reservation, hrow, hdigest, hread, hx⟩ := hout.answered d r hr hd
    obtain ⟨row', hrow', hext⟩ := hkeeps.effect _ _ _ hrow
    refine ⟨row', reservation, hrow', ?_, ?_, hx⟩
    · rw [hext.reservation, hdigest]
    · rw [hext.reservation, hread]

theorem Usage.Outcome.later {u : Usage} {a : Except Failure ProviderUsageResult}
    {t' : Table Key Row} (hout : u.Outcome env a own t) (hkeeps : Keeps t t') :
    u.Outcome env a own t' where
  kept := hout.kept.keeps hkeeps
  recorded := hout.recorded
  answered := by
    intro d r hr hd
    obtain ⟨row, evidence, hrow, hrest⟩ := hout.answered d r hr hd
    exact ⟨row, evidence, hkeeps.evidence _ _ _ hrow, hrest⟩

theorem Completion.Outcome.later {c : Completion} {a : Except Failure FinalizationResult}
    {t' : Table Key Row} (hout : c.Outcome env a own t) (hl : Ledger env t)
    (hl' : Ledger env t') (hkeeps : Keeps t t') : c.Outcome env a own t' where
  kept := hout.kept.keeps hkeeps
  settled := hout.settled
  answered := by
    intro d r hr hd
    obtain ⟨row, done, finalization, hrow, hdone, hrest⟩ := hout.answered d r hr hd
    obtain ⟨row', hrow', hext⟩ := hkeeps.effect _ _ _ hrow
    rw [hext.eq_of_finalized (hl.effects _ _ _ hrow) (hl'.effects _ _ _ hrow')
      (by simp [hdone])] at hrow'
    exact ⟨row, done, finalization, hrow', hdone, hrest⟩

theorem returned_reserve (h : Sound (contract env faults) (fun _ => Call.Owes) s)
    {r : Return Key Row (Call env) (Result env)} (hr : r ∈ s.returned) {v : Reserve env}
    (hv : r.call.checked = .ok (.reserve v)) :
    ∃ a, r.result = .of .reservation a ∧ v.Outcome a (s.commits r.id) s.table := by
  obtain ⟨howes, -, -, -, hkeeps⟩ := h.returned r hr
  obtain ⟨a, ha, hout⟩ := howes _ hv
  exact ⟨a, ha, hout.later hkeeps⟩

theorem returned_usage (h : Sound (contract env faults) (fun _ => Call.Owes) s)
    {r : Return Key Row (Call env) (Result env)} (hr : r ∈ s.returned) {u : Usage}
    (hu : r.call.checked = .ok (.usage u)) :
    ∃ a, r.result = .of .usage a ∧ u.Outcome env a (s.commits r.id) s.table := by
  obtain ⟨howes, -, -, -, hkeeps⟩ := h.returned r hr
  obtain ⟨a, ha, hout⟩ := howes _ hu
  exact ⟨a, ha, hout.later hkeeps⟩

theorem returned_completion (h : Sound (contract env faults) (fun _ => Call.Owes) s)
    {r : Return Key Row (Call env) (Result env)} (hr : r ∈ s.returned) {c : Completion}
    (hc : r.call.checked = .ok (.completion c)) :
    ∃ a, r.result = .of .finalization a ∧ c.Outcome env a (s.commits r.id) s.table := by
  obtain ⟨howes, -, -, hl, hkeeps⟩ := h.returned r hr
  obtain ⟨a, ha, hout⟩ := howes _ hc
  exact ⟨a, ha, hout.later hl h.inv hkeeps⟩

/-- The effects of a sound state are each admitted, recorded and settled once. -/
theorem exactlyOnce (h : Sound (contract env faults) (fun _ => Call.Owes) s) :
    ExactlyOnce s where
  admitted := by
    rintro b e r hr r' hr' ⟨v, x, hv, rfl, rfl, hx⟩ ⟨v', x', hv', hb, he, hx'⟩
    obtain ⟨a, ha, hout⟩ := returned_reserve h hr hv
    obtain ⟨a', ha', hout'⟩ := returned_reserve h hr' hv'
    refine h.returned_eq_of_change
      (P := fun t u => t.row (.effect v.beneficiary v.effect) = none ∧
        u.row (.effect v.beneficiary v.effect) ≠ none) ?_ hr hr'
      (hout.admitted x (Result.of_reservation (ha.symm.trans hx))) ?_
    · rintro t u t' u' ⟨-, hu⟩ hkeeps ⟨ht', -⟩
      obtain ⟨row, hrow⟩ := Option.ne_none_iff_exists'.mp hu
      obtain ⟨row', hrow', -⟩ := Keeps.effect hkeeps _ _ _ hrow
      simp [ht'] at hrow'
    · rw [← hb, ← he]
      exact hout'.admitted x' (Result.of_reservation (ha'.symm.trans hx'))
  recorded := by
    rintro b e r hr r' hr' ⟨u, x, hu, rfl, rfl, hx⟩ ⟨u', x', hu', hb, he, hx'⟩
    obtain ⟨a, ha, hout⟩ := returned_usage h hr hu
    obtain ⟨a', ha', hout'⟩ := returned_usage h hr' hu'
    refine h.returned_eq_of_change
      (P := fun t t' => t.row (u.evidenceKey env) = none ∧ t'.row (u.evidenceKey env) ≠ none)
      ?_ hr hr' (hout.recorded x (Result.of_usage (ha.symm.trans hx))) ?_
    · rintro t u' t' u'' ⟨-, hu'⟩ hkeeps ⟨ht', -⟩
      obtain ⟨row, hrow⟩ := Option.ne_none_iff_exists'.mp hu'
      have hrow' := Keeps.evidence hkeeps _ _ _ hrow
      exact absurd (hrow'.symm.trans ht') (by simp)
    · rw [Usage.evidenceKey, ← hb, ← he]
      exact hout'.recorded x' (Result.of_usage (ha'.symm.trans hx'))
  settled := by
    rintro b e r hr r' hr' ⟨c, d, x, hc, rfl, rfl, hx, hd⟩ ⟨c', d', x', hc', hb, he, hx', hd'⟩
    obtain ⟨a, ha, hout⟩ := returned_completion h hr hc
    obtain ⟨a', ha', hout'⟩ := returned_completion h hr' hc'
    refine h.returned_eq_of_change (P := Completion.Settles c.beneficiary c.effect) ?_ hr hr'
      (hout.settled d x (Result.of_finalization (ha.symm.trans hx)) hd) ?_
    · rintro t u t' u' ⟨-, row, hrow, hdone⟩ hkeeps ⟨⟨row', hrow', hnone⟩, -⟩
      obtain ⟨row'', hrow'', hext⟩ := Keeps.effect hkeeps _ _ _ hrow
      cases hrow'.symm.trans hrow''
      simp [← hext.finalized hdone, hnone] at hdone
    · rw [← hb, ← he]
      exact hout'.settled d' x' (Result.of_finalization (ha'.symm.trans hx')) hd'
  reservation := by
    intro r hr v d x hv hx hd
    obtain ⟨a, ha, hout⟩ := returned_reserve h hr hv
    exact hout.answered d x (Result.of_reservation (ha.symm.trans hx)) hd
  evidence := by
    intro r hr u d x hu hx hd
    obtain ⟨a, ha, hout⟩ := returned_usage h hr hu
    exact hout.answered d x (Result.of_usage (ha.symm.trans hx)) hd
  finalization := by
    intro r hr c d x hc hx hd
    obtain ⟨a, ha, hout⟩ := returned_completion h hr hc
    exact hout.answered d x (Result.of_finalization (ha.symm.trans hx)) hd
  other_reservation := by
    intro r hr v row hv hrow hdigest
    obtain ⟨a, ha, hout⟩ := returned_reserve h hr hv
    refine ⟨?_, fun d x hx => ?_⟩
    · by_contra hown
      obtain ⟨row', hrow', heq⟩ := hout.kept hown
      cases hrow.symm.trans hrow'
      exact hdigest heq
    · have hanswered := hout.answered d x (Result.of_reservation (ha.symm.trans hx))
      cases d <;> simp at hanswered ⊢
      all_goals
        obtain ⟨row', hrow', heq, -⟩ := hanswered
        cases hrow.symm.trans hrow'
        exact hdigest heq
  other_evidence := by
    intro r hr u row hu hrow hdigest
    obtain ⟨a, ha, hout⟩ := returned_usage h hr hu
    refine ⟨?_, fun d x hx => ?_⟩
    · by_contra hown
      obtain ⟨row', hrow', heq⟩ := hout.kept hown
      cases hrow.symm.trans hrow'
      exact hdigest heq
    · have hanswered := hout.answered d x (Result.of_usage (ha.symm.trans hx))
      cases d <;> simp at hanswered ⊢
      all_goals
        obtain ⟨row', hrow', heq, -⟩ := hanswered
        cases hrow.symm.trans hrow'
        exact hdigest heq
  other_finalization := by
    intro r hr c row done hc hrow hdone hdigest
    obtain ⟨a, ha, hout⟩ := returned_completion h hr hc
    refine ⟨?_, fun d x hx => ?_⟩
    · by_contra hown
      obtain ⟨row', done', hrow', hdone', heq⟩ := hout.kept hown
      cases hrow.symm.trans hrow'
      cases hdone.symm.trans hdone'
      exact hdigest heq
    · have hanswered := hout.answered d x (Result.of_finalization (ha.symm.trans hx))
      cases d <;> simp at hanswered ⊢
      all_goals
        obtain ⟨row', hrow', done', hdone', heq, -⟩ := hanswered
        cases hrow.symm.trans hrow'
        cases hdone.symm.trans hdone'
        exact hdigest heq

end Returns

/-! ## Replays -/

/-- What a call started on a table that follows `t` is answered, if every read
answers: from the effect or the evidence stored in `t`, and without a commit. -/
def Checked.Replays (t : Table Key Row) : Checked env → Result env →
    List (Table Key Row × Table Key Row) → Prop
  | .reserve v, result, own =>
      ∀ row, t.row (.effect v.beneficiary v.effect) = some row → own = [] ∧
        ∃ reservation, reservationFromEffect env row.toReservedEffect = .ok reservation ∧
          result = .reservation (if v.OverBudget then ⟨.limitExceeded, none⟩
            else if row.reservationPayloadDigest = v.digest then ⟨.replayed, some reservation⟩
            else ⟨.idempotencyConflict, some reservation⟩)
  | .usage u, result, own =>
      ∀ row, t.row (u.evidenceKey env) = some row → own = [] ∧
        ∃ evidence, evidenceFromItem row = .ok evidence ∧
          result = .usage (if row.providerPayloadDigest = u.digest env
            then ⟨.replayed, some evidence⟩ else ⟨.idempotencyConflict, some evidence⟩)
  | .completion c, result, own =>
      ∀ row done, t.row (.effect c.beneficiary c.effect) = some row →
        row.finalized = some done → own = [] ∧
        ∃ finalization, finalizationFromEffect row = .ok finalization ∧
          result = .finalization (if done.finalizationPayloadDigest = c.digest env
            then ⟨.replayed, some finalization⟩
            else ⟨.idempotencyConflict, some finalization⟩)
  | .release _, _, _ => True

/-- A program that commits nothing, whatever it is started on. -/
theorem Reserve.run_replays {v : Reserve env} {row : EffectRow} {t u : Table Key Row}
    (hl : Ledger env t) (hrow : t.row (.effect v.beneficiary v.effect) = some row)
    (hkeeps : Keeps t u) :
    v.run.Safe .strongReads (contract env .strongReads).toInterference v.Commits
      (fun a own _ => own = [] ∧
        ∃ reservation, reservationFromEffect env row.toReservedEffect = .ok reservation ∧
        a = .ok (if v.OverBudget then ⟨.limitExceeded, none⟩
          else if row.reservationPayloadDigest = v.digest then ⟨.replayed, some reservation⟩
          else ⟨.idempotencyConflict, some reservation⟩)) [] u := by
  have hread := reservationFromEffect_of (hl.effects _ _ _ hrow).readable
  unfold Reserve.run
  split
  · exact ⟨rfl, _, hread, rfl⟩
  · refine Program.safe_read fun t₁ hr₁ hl₁ => ⟨?_, fun hf => hf.elim⟩
    obtain ⟨row', hrow', hext⟩ := (hkeeps.trans hr₁).effect _ _ _ hrow
    have hsound := Ledger.effects hl₁ _ _ _ hrow'
    rw [hrow']
    refine ⟨rfl, _, hread, congrArg Except.ok ?_⟩
    have hreservation : row'.reservation hsound.readable = row.reservation
        (hl.effects _ _ _ hrow).readable := by
      simp only [hext.reservation]
    rw [Reserve.classify, classifyReservation_of hsound, hreservation, hext.reservation]
    split <;> rfl

theorem Usage.run_replays {u : Usage} {row : EvidenceRow} {t t' : Table Key Row}
    (hrow : t.row (u.evidenceKey env) = some row) (hkeeps : Keeps t t') :
    (u.run env).Safe .strongReads (contract env .strongReads).toInterference (u.Commits env)
      (fun a own _ => own = [] ∧ ∃ evidence, evidenceFromItem row = .ok evidence ∧
        a = .ok (if row.providerPayloadDigest = u.digest env
          then ⟨.replayed, some evidence⟩ else ⟨.idempotencyConflict, some evidence⟩)) [] t' := by
  refine Program.safe_read fun t₁ hr₁ hl₁ => ⟨?_, fun hf => hf.elim⟩
  have hrow' : t₁.row (.providerUsage u.beneficiary (env.evidenceId u.effect)) = some row :=
    (hkeeps.trans hr₁).evidence _ _ _ hrow
  have hsound := Ledger.evidence hl₁ _ _ _ hrow'
  rw [hrow']
  refine ⟨rfl, _, evidenceFromItem_of hsound, congrArg Except.ok ?_⟩
  rw [Usage.classify, classifyProviderEvidence_of hsound]
  split <;> rfl

theorem Completion.run_replays {c : Completion} {row : EffectRow} {done : FinalizedEffect}
    {t u : Table Key Row} (hl : Ledger env t)
    (hrow : t.row (.effect c.beneficiary c.effect) = some row)
    (hdone : row.finalized = some done) (hkeeps : Keeps t u) :
    (c.run env).Safe .strongReads (contract env .strongReads).toInterference (c.Commits env)
      (fun a own _ => own = [] ∧
        ∃ finalization, finalizationFromEffect row = .ok finalization ∧
        a = .ok (if done.finalizationPayloadDigest = c.digest env
          then ⟨.replayed, some finalization⟩
          else ⟨.idempotencyConflict, some finalization⟩)) [] u := by
  have hsettled : Completion.IsSettled row.state := by
    have hphase := (hl.effects _ _ _ hrow).phase
    unfold EffectRow.Phase at hphase
    unfold Completion.IsSettled
    split at hphase <;> simp_all
  obtain ⟨done', f, hdone', hf⟩ := (hl.effects _ _ _ hrow).phase.finalization hsettled
  cases hdone.symm.trans hdone'
  refine (Program.safe_bind _ _ _ _).mpr ?_
  refine Program.safe_read fun t₁ hr₁ hl₁ => ⟨?_, fun hf => hf.elim⟩
  obtain ⟨row', hrow', hext⟩ := (hkeeps.trans hr₁).effect _ _ _ hrow
  have hsound := Ledger.effects hl₁ _ _ _ hrow'
  rw [hext.eq_of_finalized (hl.effects _ _ _ hrow) hsound (by simp [hdone])] at hrow' hsound
  simp only [hrow', validatedEffect_of hsound, if_pos hsettled]
  refine ⟨rfl, f, hf, congrArg Except.ok ?_⟩
  rw [Completion.classify, classifyFinalization_of hdone hf]
  split <;> rfl

theorem Checked.run_replays {t u : Table Key Row} (hl : Ledger env t) (hkeeps : Keeps t u)
    (x : Checked env) :
    x.run.Safe Faults.strongReads (contract env .strongReads).toInterference x.Commits
      (fun a own _ => x.Replays t a own) [] u := by
  have hquiet : (∀ a own, x.Replays t a own) →
      x.run.Safe Faults.strongReads (contract env .strongReads).toInterference x.Commits
        (fun a own _ => x.Replays t a own) [] u := fun h =>
    (x.run_safe _ u).mono (fun _ _ _ hc => hc) fun a own _ _ => h a own
  cases x with
  | reserve v =>
    cases hrow : t.row (.effect v.beneficiary v.effect) with
    | none => exact hquiet fun a own row hrow' => by simp [hrow] at hrow'
    | some row =>
      refine (Program.safe_bind _ _ _ _).mpr ?_
      refine (v.run_replays hl hrow hkeeps).mono (fun _ _ _ hc => hc) ?_
      rintro a own _ ⟨hown, reservation, hread, rfl⟩ row' hrow'
      cases hrow.symm.trans hrow'
      exact ⟨hown, reservation, hread, rfl⟩
  | usage w =>
    cases hrow : t.row (w.evidenceKey env) with
    | none => exact hquiet fun a own row hrow' => absurd (hrow.symm.trans hrow') (by simp)
    | some row =>
      refine (Program.safe_bind _ _ _ _).mpr ?_
      refine (w.run_replays hrow hkeeps).mono (fun _ _ _ hc => hc) ?_
      rintro a own _ ⟨hown, evidence, hread, rfl⟩ row' hrow'
      cases hrow.symm.trans hrow'
      exact ⟨hown, evidence, hread, rfl⟩
  | completion c =>
    by_cases h : ∃ row done, t.row (.effect c.beneficiary c.effect) = some row ∧
        row.finalized = some done
    · obtain ⟨row, done, hrow, hdone⟩ := h
      refine (Program.safe_bind _ _ _ _).mpr ?_
      refine (c.run_replays hl hrow hdone hkeeps).mono (fun _ _ _ hc => hc) ?_
      rintro a own _ ⟨hown, finalization, hread, rfl⟩ row' done' hrow' hdone'
      cases hrow.symm.trans hrow'
      cases hdone.symm.trans hdone'
      exact ⟨hown, finalization, hread, rfl⟩
    · exact hquiet fun a own row done hrow hdone => (h ⟨row, done, hrow, hdone⟩).elim
  | release v => exact hquiet fun _ _ => trivial

/-- The life of an effect. Its stored state only moves from reserved to observed
to finalized or restored; it is admitted, recorded and settled by one call each;
and a call started once it is stored is answered from what is stored. Only a
reservation that exceeds its own budget is refused before the effect is read. -/
theorem effect_exactly_once {t : Table Key Row} {s s' : State Key Row (Call env) (Result env)}
    (hfresh : Fresh t) (h : Reachable (service env .strongReads) t s)
    (hrun : Steps (service env .strongReads) s s') :
    (∀ s'', Step (service env .strongReads) s' s'' → ∀ b e,
      Advances (stateOf s'.table b e) (stateOf s''.table b e)) ∧
    ExactlyOnce s' ∧
    ∀ r ∈ s'.returned, s.next ≤ r.id → ∀ x, r.call.checked = .ok x →
      x.Replays s.table r.result (s'.commits r.id) := by
  have hs := sound hfresh h
  have hs' := sound hfresh (h.trans hrun)
  refine ⟨fun s'' hstep b e => ?_, exactlyOnce hs', ?_⟩
  · rcases hs'.step_table hstep with heq | hdrift | ⟨_, -, -, -, hcommit⟩
    · rw [heq]
      exact .stays _
    · rw [stateOf, stateOf, hdrift (.effect b e) (by simp)]
      exact .stays _
    · exact Call.Commits.advances hcommit b e
  · intro r hr hid x hx
    refine hs.later hrun (P := fun c a own _ => ∀ x, c.checked = .ok x →
      x.Replays s.table a own) (fun c u _ hkeeps => ?_) r hr hid x hx
    refine Call.body_safe_of (fun x hx => ?_) fun failure hx x hx' => by simp [hx] at hx'
    refine (x.run_replays hs.inv hkeeps).mono (fun _ _ _ hc => hc) fun a own _ ha x' hx' => ?_
    cases hx.symm.trans hx'
    exact ha

/-! ## Answers to another payload -/

namespace Sample

/-- The state after a second reservation of the effect, over its own budget. -/
def overBudget : State Key Row (Call sampleEnv) (Result sampleEnv) :=
  reserved.solo (service sampleEnv .strongReads) (reserveTokens 60000) []

theorem overBudget_steps : Steps (service sampleEnv .strongReads) reserved overBudget :=
  State.solo_steps trivial trivial trivial []

/-- The disposition of a reservation's answer. -/
def reservationDisposition : Result sampleEnv → Option ReservationDisposition
  | .reservation r => some r.disposition
  | _ => none

end Sample

/-- A later reservation of a stored effect under another digest is refused as
over the limit, not as a conflict. -/
theorem other_payload_limit_exceeded :
    Reachable (service Sample.sampleEnv .strongReads) Sample.start Sample.overBudget ∧
    (Sample.overBudget.returned.map fun r => (r.id, Sample.reservationDisposition r.result)) =
      [(1, some .limitExceeded), (0, some .admitted)] ∧
    Sample.sampleEnv.payloadDigest (.reservation Sample.student (Sample.digestOf '7' isLowerHex_7)
        "2026-W13" .freeTrial 1 50000 10000 40 10) ≠
      Sample.sampleEnv.payloadDigest (.reservation Sample.student (Sample.digestOf '7' isLowerHex_7)
        "2026-W13" .freeTrial 1 50000 10000 60000 10) :=
  ⟨Sample.reserved_reachable.trans Sample.overBudget_steps, by decide, by decide⟩

theorem effect_exactly_once_sample :
    ExactlyOnce Sample.overBudget ∧ ∀ r ∈ Sample.overBudget.returned, Sample.reserved.next ≤ r.id →
      ∀ x, r.call.checked = .ok x →
        x.Replays Sample.reserved.table r.result (Sample.overBudget.commits r.id) :=
  (effect_exactly_once Sample.start_fresh Sample.reserved_reachable Sample.overBudget_steps).2

end Stoa.Allowance
