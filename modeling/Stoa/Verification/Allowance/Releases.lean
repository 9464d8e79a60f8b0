import Stoa.Store.Shielded
import Stoa.Verification.Allowance.Lifecycle

/-! # Releasing a reservation whose cost is not known

A release reads the state of its effect before it records the usage and restores
the reservation. What it leaves behind is right in any case; what it answers is,
if nobody else settles the effect in between. -/

namespace Stoa.Allowance

open RowStore

variable {env : Env}

/-! ## What a release writes -/

/-- The usage that a release records is the whole reservation of the effect. -/
inductive Release.Books (env : Env) (v : Release) (t t' : Table Key Row) : Prop where
  | usage (input output : Count) (row : EffectRow) (stored : t.row (.effect v.beneficiary v.effect) = some row)
      (input_eq : row.reservationInputTokens = input.val) (output_eq : row.reservationOutputTokens = output.val)
      (h : (v.usage env input output).Commits env t t')
  | restore (h : v.completion.Commits env t t')

theorem Release.Books.commits {v : Release} {t t' : Table Key Row} (h : v.Books env t t') : v.Commits env t t' := by
  cases h with
  | usage input output row stored input_eq output_eq h => exact .usage input output h
  | restore h => exact .restore h

def Checked.Books : Checked env → Table Key Row → Table Key Row → Prop
  | .reserve v => v.Commits
  | .usage u => u.Commits env
  | .completion c => c.Commits env
  | .release v => v.Books env

/-- What a call may commit, where a release records the ceiling. -/
def Call.Books (call : Call env) (t t' : Table Key Row) : Prop :=
  ∃ x, call.checked = .ok x ∧ x.Books t t'

theorem Call.Books.commits {call : Call env} {t t' : Table Key Row} (h : call.Books t t') : call.Commits t t' := by
  obtain ⟨x, hx, hbooks⟩ := h
  refine ⟨x, hx, ?_⟩
  cases x with
  | reserve v => exact hbooks
  | usage u => exact hbooks
  | completion c => exact hbooks
  | release v => exact hbooks.commits

/-- The contract of the ledger's calls, where a release records the ceiling. -/
def bookedContract (env : Env) (faults : Faults) : Contract (service env faults) where
  toInterference := (contract env faults).toInterference
  Move := Call.Books
  move_inv := fun h hc => (contract env faults).move_inv h hc.commits
  move_rely := fun h hc => (contract env faults).move_rely h hc.commits
  drift_inv := (contract env faults).drift_inv
  drift_rely := (contract env faults).drift_rely

/-- The reservation of the effect is as large as that. -/
def Reserves (b : Text) (e : Sha256) (input output : ℤ) (t : Table Key Row) : Prop :=
  ∃ row, t.row (.effect b e) = some row ∧ row.reservationInputTokens = input ∧ row.reservationOutputTokens = output

theorem Reserves.keeps {b : Text} {e : Sha256} {input output : ℤ} {t t' : Table Key Row}
    (h : Reserves b e input output t) (hk : Keeps t t') : Reserves b e input output t' := by
  obtain ⟨row, hrow, hin, hout⟩ := h
  obtain ⟨row', hrow', hext⟩ := hk.effect _ _ _ hrow
  exact ⟨row', hrow', by rw [hext.reservation, hin], by rw [hext.reservation, hout]⟩

/-- What a release that answers `released` has left: its own restoration. -/
def Release.Gave (env : Env) (v : Release) (result : Except Failure ReleaseDisposition) (t : Table Key Row) : Prop :=
  result = .ok .released → ∃ row done, t.row (.effect v.beneficiary v.effect) = some row ∧
    row.finalized = some done ∧ done.finalizationPayloadDigest = v.completion.digest env

namespace Release

theorem giveBack_books (v : Release) (faults : Faults) (own : List (Table Key Row × Table Key Row))
    (t : Table Key Row) :
    (v.giveBack env).Safe faults (bookedContract env faults).toInterference (v.Books env)
      (fun a _ t => v.Gave env a t) own t := by
  refine (Program.safe_bind _ _ _ _).mpr ?_
  have hrun := (v.completion.run_safe env faults t).frame own
  refine hrun.mono (fun _ _ _ hc => .restore hc) fun a own t ha => ?_
  obtain ⟨new, -, hout⟩ := ha
  cases a with
  | error failure => exact fun h => by cases h
  | ok restored =>
    obtain ⟨disposition, finalization⟩ := restored
    have hgave : disposition = .restored ∨ disposition = .replayed → v.Gave env (.ok .released) t := fun hd _ => by
      obtain ⟨row, fin, -, hrow, hfin, hdigest, -⟩ := hout.answered disposition finalization rfl (.inr hd)
      exact ⟨row, fin, hrow, hfin, hdigest⟩
    cases disposition with
    | restored => exact hgave (.inl rfl)
    | replayed => exact hgave (.inr rfl)
    | finalized => exact fun h => by cases h
    | idempotencyConflict => exact fun h => by cases h
    | invalidState => exact fun h => by cases h
    | retryable => exact fun h => by cases h

theorem run_books (v : Release) (faults : Faults) (t : Table Key Row) :
    (v.run env).Safe faults (bookedContract env faults).toInterference (v.Books env)
      (fun a _ t => v.Gave env a t) [] t := by
  refine Program.safe_read fun t₁ _ hl₁ => ⟨?_, fun _ => fun h => by cases h⟩
  cases hrow : t₁.row (.effect v.beneficiary v.effect) with
  | none => exact fun h => by cases h
  | some raw =>
    dsimp only
    have hsound := Ledger.effects hl₁ _ _ _ hrow
    simp only [validatedEffect_of hsound, storedCount_of hsound.readable.inputTokens,
      storedCount_of hsound.readable.outputTokens]
    cases raw.state with
    | finalized => exact fun h => by cases h
    | restored => exact fun h => by cases h
    | observed => exact v.giveBack_books faults [] t₁
    | reserved =>
      refine (Program.safe_bind _ _ _ _).mpr ?_
      have hrun := (v.usage env ⟨_, hsound.readable.inputTokens⟩
        ⟨_, hsound.readable.outputTokens⟩).run_safe env faults t₁
      have hreserves : Reserves v.beneficiary v.effect raw.reservationInputTokens raw.reservationOutputTokens t₁ :=
        ⟨raw, hrow, rfl, rfl⟩
      refine (hrun.along (J := (bookedContract env faults).toInterference) (H := v.Books env) hreserves
        (fun _ h => h) (fun _ _ h => h) (fun _ _ hu hr => hu.keeps hr) fun t u hl hu hc => ?_).mono
          (fun _ _ _ hc => hc) fun a own t _ => ?_
      · obtain ⟨row, hrow, hin, hout⟩ := hu
        exact ⟨.usage _ _ row hrow hin hout hc, Reserves.keeps ⟨row, hrow, hin, hout⟩ (hc.keeps hl)⟩
      · cases a with
        | error failure => exact fun h => by cases h
        | ok recorded =>
          obtain ⟨disposition, evidence⟩ := recorded
          cases disposition with
          | recorded => exact v.giveBack_books faults own t
          | replayed => exact v.giveBack_books faults own t
          | idempotencyConflict => exact fun h => by cases h
          | invalidState => exact fun h => by cases h
          | retryable => exact fun h => by cases h

end Release

/-- Every call commits what the contract lets it, and a release tells what it gave back. -/
theorem Call.body_books (faults : Faults) (call : Call env) (t : Table Key Row) :
    call.body.Safe faults (bookedContract env faults).toInterference call.Books
      (fun result _ t => ∀ v, call.checked = .ok (.release v) → ∃ a, result = .of .release a ∧ v.Gave env a t)
      [] t := by
  have hrest : ∀ x, call.checked = .ok x → (∀ v, x ≠ .release v) →
      x.run.Safe faults (bookedContract env faults).toInterference call.Books
        (fun result _ t => ∀ v, call.checked = .ok (.release v) →
          ∃ a, result = .of .release a ∧ v.Gave env a t) [] t := fun x hx hne => by
    refine (x.run_safe faults t).mono (fun t u _ hc => ⟨x, hx, ?_⟩) fun a own t _ v hv => ?_
    · cases x with
      | release v => exact absurd rfl (hne v)
      | reserve v => exact hc
      | usage u => exact hc
      | completion c => exact hc
    · cases hx.symm.trans hv
      exact absurd rfl (hne v)
  rw [body_eq]
  split
  · rename_i x hx
    cases x with
    | reserve v => exact hrest _ hx (by rintro _ ⟨⟩)
    | usage u => exact hrest _ hx (by rintro _ ⟨⟩)
    | completion c => exact hrest _ hx (by rintro _ ⟨⟩)
    | release v =>
      refine (Program.safe_bind _ _ _ _).mpr ?_
      refine (v.run_books faults t).mono (fun _ _ _ hc => ⟨_, hx, hc⟩) fun a own t ha v' hv' => ?_
      cases hx.symm.trans hv'
      exact ⟨a, rfl, ha⟩
  · rename_i failure hx
    intro v hv
    rw [hx] at hv
    cases hv

/-- What is reported is not a ceiling. -/
theorem Call.unknownCost_eq {call : Call env} {u : Usage} (h : call.checked = .ok (.usage u)) :
    u.unknownCost = false := by
  cases call with
  | record r =>
      cases hu : r.checked with
      | error failure => simp [Call.checked, hu, Except.map] at h
      | ok u' =>
          simp only [Call.checked, hu, Except.map, Except.ok.injEq, Checked.usage.injEq] at h
          subst h
          simp only [UsageRequest.checked, bind_eq_ok] at hu
          obtain ⟨_, -, _, -, _, -, _, -, _, -, _, -, hu⟩ := hu
          rw [← Except.ok.inj hu]
  | reserve r => simp only [Call.checked] at h; cases hr : r.checked <;> simp [hr, Except.map] at h
  | finalize r => simp only [Call.checked] at h; cases hr : r.checked false <;> simp [hr, Except.map] at h
  | restore r => simp only [Call.checked] at h; cases hr : r.checked true <;> simp [hr, Except.map] at h
  | release r => simp only [Call.checked] at h; cases hr : r.checked <;> simp [hr, Except.map] at h

/-! ## Evidence -/

/-- The provider reported the counts of the evidence, or they are the ceiling of the
reservation. -/
def EvidenceRow.Justified (history : List (Commit Key Row (Call env))) (b : Text) (row : EffectRow)
    (item : EvidenceRow) : Prop :=
  (item.costBasis = none ∧ ∃ h ∈ history, ∃ u, h.call.checked = .ok (.usage u) ∧ u.beneficiary = b ∧
    u.effect = item.effectId ∧ item.inputTokens = u.actualInput.val ∧ item.outputTokens = u.actualOutput.val) ∨
  (item.costBasis = some "unknown_cost" ∧ item.inputTokens = row.reservationInputTokens ∧
    item.outputTokens = row.reservationOutputTokens)

/-- What the evidence and the finalizations stored so far come from. -/
structure Accounted (env : Env) (history : List (Commit Key Row (Call env))) (t : Table Key Row) : Prop where
  evidence : ∀ b x item, t.row (.providerUsage b x) = some item → x = env.evidenceId item.effectId ∧
    ∃ row, t.row (.effect b item.effectId) = some row ∧ row.state ≠ .reserved ∧ item.Justified history b row
  effect : ∀ b e row, t.row (.effect b e) = some row → row.state ≠ .reserved →
    ∃ item, t.row (.providerUsage b (env.evidenceId e)) = some item ∧ item.effectId = e
  digest : ∀ b e row done, t.row (.effect b e) = some row → row.finalized = some done →
    done.finalizationPayloadDigest = env.payloadDigest
      (if row.state = .restored then .restoration b e done.flags else .finalization b e done.flags)

theorem EvidenceRow.Justified.later {history newer : List (Commit Key Row (Call env))} {b : Text}
    {row row' : EffectRow} {item : EvidenceRow} (h : item.Justified history b row) (hsub : history ⊆ newer)
    (hrow : row'.toReservedEffect = row.toReservedEffect) : item.Justified newer b row' := by
  rcases h with ⟨hbasis, e, he, hrest⟩ | ⟨hbasis, hin, hout⟩
  · exact .inl ⟨hbasis, e, hsub he, hrest⟩
  · exact .inr ⟨hbasis, by rw [hrow, hin], by rw [hrow, hout]⟩

namespace Accounted

variable {history : List (Commit Key Row (Call env))} {t t' : Table Key Row}

theorem fresh (h : Fresh t) : Accounted env history t where
  evidence b x item hitem := by rw [h _ (by simp)] at hitem; cases hitem
  effect b e row hrow := by rw [h _ (by simp)] at hrow; cases hrow
  digest b e row done hrow := by rw [h _ (by simp)] at hrow; cases hrow

theorem drift (h : Accounted env history t) (hd : FenceDrift t t') : Accounted env history t' where
  evidence b x item hitem := by
    rw [hd _ (by simp)] at hitem
    rw [hd _ (by simp)]
    exact h.evidence b x item hitem
  effect b e row hrow hstate := by
    rw [hd _ (by simp)] at hrow ⊢
    exact h.effect b e row hrow hstate
  digest b e row done hrow := by
    rw [hd _ (by simp)] at hrow
    exact h.digest b e row done hrow

/-- A write that changes one effect, and no evidence. -/
theorem of_effect {e : Commit Key Row (Call env)} {b : Text} {x : Sha256} (h : Accounted env history t)
    (row : EffectRow) (hevidence : ∀ b x, t'.row (.providerUsage b x) = t.row (.providerUsage b x))
    (hrow : t'.row (.effect b x) = some row)
    (hothers : ∀ b' x', Key.effect b' x' ≠ .effect b x → t'.row (.effect b' x') = t.row (.effect b' x'))
    (hold : ∀ old, t.row (.effect b x) = some old →
      row.toReservedEffect = old.toReservedEffect ∧ row.state ≠ .reserved)
    (hstate : row.state ≠ .reserved → ∃ old, t.row (.effect b x) = some old ∧ old.state ≠ .reserved)
    (hdigest : ∀ done, row.finalized = some done → done.finalizationPayloadDigest = env.payloadDigest
      (if row.state = .restored then .restoration b x done.flags else .finalization b x done.flags)) :
    Accounted env (e :: history) t' where
  evidence b' y item hitem := by
    rw [hevidence] at hitem
    obtain ⟨hy, old, holdrow, hstate', hjustified⟩ := h.evidence b' y item hitem
    refine ⟨hy, ?_⟩
    by_cases hk : Key.effect b' item.effectId = .effect b x
    · obtain ⟨rfl, rfl⟩ := Key.effect.inj hk
      obtain ⟨hsame, hne⟩ := hold old holdrow
      exact ⟨row, hrow, hne, hjustified.later (List.subset_cons_self _ _) hsame⟩
    · exact ⟨old, by rw [hothers _ _ hk, holdrow], hstate', hjustified.later (List.subset_cons_self _ _) rfl⟩
  effect b' x' row' hrow' hstate' := by
    rw [hevidence]
    by_cases hk : Key.effect b' x' = .effect b x
    · obtain ⟨rfl, rfl⟩ := Key.effect.inj hk
      cases hrow.symm.trans hrow'
      obtain ⟨old, holdrow, hne⟩ := hstate hstate'
      exact h.effect _ _ old holdrow hne
    · exact h.effect _ _ row' (by rw [← hothers _ _ hk, hrow']) hstate'
  digest b' x' row' done hrow' hdone := by
    by_cases hk : Key.effect b' x' = .effect b x
    · obtain ⟨rfl, rfl⟩ := Key.effect.inj hk
      cases hrow.symm.trans hrow'
      exact hdigest done hdone
    · exact h.digest _ _ row' done (by rw [← hothers _ _ hk, hrow']) hdone

theorem reserve {e : Commit Key Row (Call env)} {v : Reserve env} (h : Accounted env history t)
    (hc : v.Commits t t') : Accounted env (e :: history) t' := by
  cases hc with
  | mk generation counter plan absent stored planned =>
    refine h.of_effect (b := v.beneficiary) (x := v.effect) plan.effect (fun b x => ?_) ?_
      (fun b x hk => ?_) (fun old hold => ?_) (fun hstate => ?_) fun done hdone => ?_
    · rw [Table.row_set_of_ne _ _ (by simp), Table.row_set_of_ne _ _ (by simp)]
    · rw [Table.row_set_of_ne _ _ (by simp), Table.row_set_self]
    · rw [Table.row_set_of_ne _ _ (by simp), Table.row_set_of_ne _ _ hk]
    · cases absent.symm.trans hold
    · rw [planned.effect] at hstate
      exact absurd rfl hstate
    · rw [planned.effect] at hdone
      cases hdone

theorem completion {e : Commit Key Row (Call env)} {c : Completion} (h : Accounted env history t)
    (hc : c.Commits env t t') : Accounted env (e :: history) t' := by
  cases hc with
  | mk current week counter observed item evidence plan effect state week_of stored observed_as usage read planned =>
    refine h.of_effect (b := c.beneficiary) (x := c.effect) plan.effect (fun b x => ?_) ?_
      (fun b x hk => ?_) (fun old hold => ?_) (fun _ => ⟨current, effect, by simp [state]⟩) fun done hdone => ?_
    · rw [Table.row_set_of_ne _ _ (by simp), Table.row_set_of_ne _ _ (by simp)]
    · rw [Table.row_set_of_ne _ _ (by simp), Table.row_set_self]
    · rw [Table.row_set_of_ne _ _ (by simp), Table.row_set_of_ne _ _ hk]
    · cases effect.symm.trans hold
      rw [planned.effect, Completion.nextEffect]
      refine ⟨rfl, ?_⟩
      dsimp only
      split <;> simp
    · rw [planned.effect] at hdone ⊢
      cases hdone
      simp only [Completion.nextEffect, Completion.digest]
      by_cases hrestore : c.restore = true <;> simp [hrestore]

theorem usage {e : Commit Key Row (Call env)} {u : Usage} (h : Accounted env history t)
    (hc : u.Commits env t t') (hjustified : ∀ row week, t.row (.effect u.beneficiary u.effect) = some row →
      (u.evidenceItem env week).Justified (e :: history) u.beneficiary (u.nextEffect env row))
    (hl : Ledger env t) : Accounted env (e :: history) t' := by
  cases hc with
  | mk current week counter plan effect reserved week_of stored absent planned =>
    have hphase := (hl.effects _ _ _ effect).phase
    simp only [EffectRow.Phase, reserved] at hphase
    have hnone : ∀ b x, Key.providerUsage b x = .providerUsage u.beneficiary (env.evidenceId u.effect) →
        t.row (.providerUsage b x) = none := fun b x hk => by
      obtain ⟨rfl, rfl⟩ := Key.providerUsage.inj hk
      exact absent
    -- The evidence of another effect would be under its own key.
    have hother : ∀ b x item, t.row (.providerUsage b x) = some item →
        Key.effect b item.effectId ≠ .effect u.beneficiary u.effect := fun b x item hitem hk => by
      obtain ⟨hx, -⟩ := h.evidence b x item hitem
      obtain ⟨rfl, heq⟩ := Key.effect.inj hk
      cases (hnone _ x (by rw [hx, heq])).symm.trans hitem
    refine ⟨fun b x item hitem => ?_, fun b x row hrow hstate => ?_, fun b x row done hrow hdone => ?_⟩
    · rw [Table.row_set_of_ne _ _ (by simp), Table.row_set_of_ne _ _ (by simp)] at hitem
      by_cases hk : Key.providerUsage b x = .providerUsage u.beneficiary (env.evidenceId u.effect)
      · obtain ⟨rfl, rfl⟩ := Key.providerUsage.inj hk
        rw [Table.row_set_self, planned.evidence] at hitem
        cases hitem
        refine ⟨rfl, plan.effect, ?_, ?_, ?_⟩
        · rw [Table.row_set_of_ne _ _ (by simp)]
          exact Table.row_set_self ..
        · rw [planned.effect]
          simp [Usage.nextEffect]
        · rw [planned.effect]
          exact hjustified current _ effect
      · rw [Table.row_set_of_ne _ _ hk] at hitem
        obtain ⟨hx, row, hrow, hstate, hjust⟩ := h.evidence b x item hitem
        refine ⟨hx, row, ?_, hstate, hjust.later (List.subset_cons_self _ _) rfl⟩
        rw [Table.row_set_of_ne _ _ (by simp), Table.row_set_of_ne _ _ (hother b x item hitem),
          Table.row_set_of_ne _ _ (by simp), hrow]
    · rw [Table.row_set_of_ne _ _ (by simp)] at hrow
      rw [Table.row_set_of_ne _ _ (by simp), Table.row_set_of_ne _ _ (by simp)]
      by_cases hk : Key.effect b x = .effect u.beneficiary u.effect
      · obtain ⟨rfl, rfl⟩ := Key.effect.inj hk
        exact ⟨plan.evidence, Table.row_set_self .., by rw [planned.evidence]; rfl⟩
      · rw [Table.row_set_of_ne _ _ hk, Table.row_set_of_ne _ _ (by simp)] at hrow
        obtain ⟨item, hitem, heffect⟩ := h.effect b x row hrow hstate
        have hne : Key.providerUsage b (env.evidenceId x) ≠
            .providerUsage u.beneficiary (env.evidenceId u.effect) := fun heq => by
          cases (hnone _ _ heq).symm.trans hitem
        exact ⟨item, by rw [Table.row_set_of_ne _ _ hne, hitem], heffect⟩
    · rw [Table.row_set_of_ne _ _ (by simp)] at hrow
      by_cases hk : Key.effect b x = .effect u.beneficiary u.effect
      · obtain ⟨rfl, rfl⟩ := Key.effect.inj hk
        rw [Table.row_set_self] at hrow
        cases hrow
        rw [planned.effect] at hdone
        cases hphase.2.2.symm.trans hdone
      · rw [Table.row_set_of_ne _ _ hk, Table.row_set_of_ne _ _ (by simp)] at hrow
        exact h.digest b x row done hrow hdone

theorem books {e : Commit Key Row (Call env)} (h : Accounted env history e.before) (hl : Ledger env e.before)
    (hc : e.call.Books e.before e.after) : Accounted env (e :: history) e.after := by
  obtain ⟨x, hx, hbooks⟩ := hc
  cases x with
  | reserve v => exact h.reserve hbooks
  | completion c => exact h.completion hbooks
  | usage u =>
      refine h.usage hbooks (fun row week _ => .inl ⟨?_, e, List.mem_cons_self .., u, hx, rfl, rfl, rfl, rfl⟩) hl
      simp [Usage.evidenceItem, Usage.costBasis, Call.unknownCost_eq hx]
  | release v =>
      cases hbooks with
      | restore hcommits => exact h.completion hcommits
      | usage input output row stored input_eq output_eq hcommits =>
          refine h.usage hcommits (fun row' week hrow' => .inr ⟨rfl, ?_, ?_⟩) hl
          · cases stored.symm.trans hrow'
            exact input_eq.symm
          · cases stored.symm.trans hrow'
            exact output_eq.symm

end Accounted

/-! ## Nobody else settles the effect -/

theorem EffectRow.Phase.settled {row : EffectRow} (h : row.Phase) (hsome : row.finalized.isSome) :
    Completion.IsSettled row.state := by
  unfold EffectRow.Phase at h
  split at h
  · simp [h.2.2] at hsome
  · simp [h.2.2] at hsome
  · exact .inl ‹_›
  · exact .inr ‹_›

/-- The effect is stored, and not settled. -/
def Unsettled (b : Text) (e : Sha256) (t : Table Key Row) : Prop :=
  ∃ row, t.row (.effect b e) = some row ∧ row.finalized = none

/-- A change that leaves the effect of a release unsettled. -/
def Call.Spares (call : Call env) (t t' : Table Key Row) : Prop :=
  ∀ v, call.checked = .ok (.release v) → Unsettled v.beneficiary v.effect t → Unsettled v.beneficiary v.effect t'

theorem Call.spares_of_keeps {call : Call env} {t t' : Table Key Row} (hk : Keeps t t')
    (h : ∀ v, call.checked = .ok (.release v) → ¬ Completion.Settles v.beneficiary v.effect t t') :
    call.Spares t t' := by
  rintro v hv ⟨row, hrow, hnone⟩
  obtain ⟨row', hrow', -⟩ := hk.effect _ _ _ hrow
  refine ⟨row', hrow', ?_⟩
  by_contra hsettled
  exact h v hv ⟨⟨row, hrow, hnone⟩, row', hrow', Option.isSome_iff_ne_none.mpr hsettled⟩

/-- What a call relies on where the others leave the effect of a release alone. -/
def Call.rely (call : Call env) : Interference Key Row where
  Inv := Ledger env
  Rely t t' := Keeps t t' ∧ call.Spares t t'
  refl t := ⟨.refl t, fun _ _ h => h⟩
  trans h h' := ⟨h.1.trans h'.1, fun v hv hu => h'.2 v hv (h.2 v hv hu)⟩

/-- The effect is settled by a completion with the payload of `c`. -/
def Completion.SettledIt (env : Env) (c : Completion) (t : Table Key Row) : Prop :=
  ∃ row done, t.row (.effect c.beneficiary c.effect) = some row ∧ row.finalized = some done ∧
    done.finalizationPayloadDigest = c.digest env

theorem Completion.SettledIt.keeps {c : Completion} {t t' : Table Key Row} (h : c.SettledIt env t)
    (hk : Keeps t t') : c.SettledIt env t' := by
  obtain ⟨row, fin, hrow, hfin, hdigest⟩ := h
  obtain ⟨row', hrow', hext⟩ := hk.effect _ _ _ hrow
  exact ⟨row', fin, hrow', by rw [hext.finalized (by simp [hfin]), hfin], hdigest⟩

/-- Nobody else has settled the effect. -/
def Completion.Standing (env : Env) (c : Completion) (t : Table Key Row) : Prop :=
  Unsettled c.beneficiary c.effect t ∨ c.SettledIt env t

/-- An answer that says so if the effect is settled. -/
def Completion.Told (faults : Faults) (c : Completion) (result : Except Failure FinalizationResult)
    (t : Table Key Row) : Prop :=
  ∀ d x, result = .ok ⟨d, x⟩ → d = .restored ∨ d = .replayed ∨ Unsettled c.beneficiary c.effect t ∨
    faults.readRaises ∧ d = .retryable

/-- An answer that says so if the effect is settled, unless a read has raised. -/
def Release.Told (faults : Faults) (v : Release) (result : Except Failure ReleaseDisposition)
    (t : Table Key Row) : Prop :=
  ∀ d, result = .ok d → ∀ row, t.row (.effect v.beneficiary v.effect) = some row → row.finalized.isSome →
    d = .released ∨ d = .alreadySettled ∨ faults.readRaises ∧ d = .retryable

section Answers

variable {faults : Faults} {call : Call env} {c : Completion} {own : List (Table Key Row × Table Key Row)}
  {t t' : Table Key Row}

theorem Completion.Told.unsettled (h : Unsettled c.beneficiary c.effect t)
    {result : Except Failure FinalizationResult} : c.Told faults result t :=
  fun _ _ _ => .inr (.inr (.inl h))

theorem Completion.Told.retryable (h : faults.readRaises) {x : Option AllowanceFinalization} :
    c.Told faults (.ok ⟨.retryable, x⟩) t := fun d _ hd => by
  cases hd
  exact .inr (.inr (.inr ⟨h, rfl⟩))

theorem Completion.Told.classified (hl : Ledger env t) {row : EffectRow}
    (hrow : t.row (.effect c.beneficiary c.effect) = some row) (hs : IsSettled row.state)
    (h : c.Standing env t) : c.Told faults (.ok (c.classify env row)) t := by
  obtain ⟨fin, f, hfin, hf⟩ := (hl.effects _ _ _ hrow).phase.finalization hs
  rcases h with ⟨row', hrow', hnone⟩ | ⟨row', fin', hrow', hfin', hdigest⟩
  · cases hrow.symm.trans hrow'
    cases hnone.symm.trans hfin
  · cases hrow.symm.trans hrow'
    cases hfin.symm.trans hfin'
    rw [Completion.classify, classifyFinalization_of hfin hf, if_pos hdigest]
    intro d x hd
    cases hd
    exact .inr (.inl rfl)

/-- After a lost race, where nobody else settles the effect. -/
theorem Completion.raced_told
    (hrely : ∀ t t', call.rely.Rely t t' → c.Standing env t → c.Standing env t') (h : c.Standing env t) :
    (Program.read (.effect c.beneficiary c.effect) fun
      | none => done ⟨.retryable, none⟩
      | some none => .ret none
      | some (some raced) =>
        if IsSettled raced.state then done (c.classify env raced) else .ret none :
        Attempt FinalizationResult).Safe faults call.rely (fun _ _ => True)
        (Post.orLost (fun a _ t => c.Told faults a t) fun _ t => Unsettled c.beneficiary c.effect t) own t := by
  refine Program.safe_read fun t₁ hr hl => ⟨?_, fun hf => .retryable hf⟩
  have hstanding := hrely _ _ hr h
  cases hrow : t₁.row (.effect c.beneficiary c.effect) with
  | none =>
    rcases hstanding with ⟨row, hrow', -⟩ | ⟨row, -, hrow', -⟩ <;> cases hrow.symm.trans hrow'
  | some raced =>
    dsimp only
    split
    · rename_i hs
      exact .classified hl hrow hs hstanding
    · rename_i hs
      refine ⟨raced, hrow, ?_⟩
      by_contra hsettled
      exact hs ((Ledger.effects hl _ _ _ hrow).phase.settled (Option.isSome_iff_ne_none.mpr hsettled))

/-- An attempt on an effect that is observed, where nobody else settles it. -/
theorem Completion.settle_told (hrestore : c.restore = true) {current : EffectRow} {week : WeekFields}
    (hspares : ∀ t t', call.rely.Rely t t' → Unsettled c.beneficiary c.effect t →
      Unsettled c.beneficiary c.effect t') (h : Unsettled c.beneficiary c.effect t) :
    (c.settle env current week).Safe faults call.rely (fun _ _ => True)
      (Post.orLost (fun a _ t => c.Told faults a t) fun _ t => Unsettled c.beneficiary c.effect t) own t := by
  have hstays : ∀ t t', call.rely.Rely t t' → c.Standing env t → c.Standing env t' := fun t t' hr hs =>
    hs.imp (hspares t t' hr) fun hs => hs.keeps hr.1
  refine Program.safe_read fun t₁ hr₁ _ => ⟨?_, fun hf => .retryable hf⟩
  have h₁ := hspares _ _ hr₁ h
  cases readCounter c.beneficiary week (some (t₁.row (.counter c.beneficiary week.identity))) with
  | error message => exact .unsettled h₁
  | ok counter =>
    cases current.observed with
    | none => exact .unsettled h₁
    | some observed =>
      refine Program.safe_read fun t₂ hr₂ _ => ⟨?_, fun hf => .retryable hf⟩
      have h₂ := hspares _ _ hr₂ h₁
      cases t₂.row (.providerUsage c.beneficiary observed.evidenceId) with
      | none => exact .unsettled h₂
      | some item =>
        cases counter with
        | none => exact .unsettled h₂
        | some counter =>
          cases hevidence : evidenceFromItem item with
          | error message =>
            simp only [hevidence]
            exact .unsettled h₂
          | ok evidence =>
            simp only [hevidence]
            cases hplan : c.plan env current week counter evidence with
            | error result => exact .unsettled h₂
            | ok plan =>
              have hplanned := planned hplan
              refine Program.safe_transact
                (fun t₃ hr₃ _ => raced_told hstays (.inl (hspares _ _ hr₃ h₂)))
                fun t₃ hr₃ _ _ => ⟨trivial, ?_, ?_⟩
              · cases finalizationFromEffect plan.effect with
                | error message => exact fun _ _ hd => by cases hd
                | ok f =>
                  intro d x hd
                  simp only [hrestore, if_true, Except.ok.injEq, FinalizationResult.mk.injEq] at hd
                  exact .inl hd.1.symm
              · refine raced_told hstays (.inr ⟨plan.effect, ?_⟩)
                rw [apply_operations, Table.row_set_of_ne _ _ (by simp), Table.row_set_self, hplanned.effect]
                exact ⟨_, rfl, rfl, rfl⟩

/-- The completion of an effect that nobody else settles. -/
theorem Completion.run_told (hrestore : c.restore = true)
    (hspares : ∀ t t', call.rely.Rely t t' → Unsettled c.beneficiary c.effect t →
      Unsettled c.beneficiary c.effect t') (h : Unsettled c.beneficiary c.effect t) :
    (c.run env).Safe faults call.rely (fun _ _ => True) (fun a _ t => c.Told faults a t) own t := by
  refine Program.safe_retry (fun _ t => Unsettled c.beneficiary c.effect t) (fun own t h => ?_)
    (fun _ _ h => .unsettled h) _ _ _ h
  refine Program.safe_read fun t₁ hr₁ hl₁ => ⟨?_, fun hf => .retryable hf⟩
  have h₁ := hspares _ _ hr₁ h
  obtain ⟨row, hrow, hnone⟩ := id h₁
  rw [hrow]
  dsimp only
  rw [validatedEffect_of (Ledger.effects hl₁ _ _ _ hrow)]
  dsimp only
  split
  · rename_i hs
    exact .classified hl₁ hrow hs (.inl h₁)
  · split
    · exact .unsettled h₁
    · split
      · exact .unsettled h₁
      · split
        · exact .unsettled h₁
        · exact settle_told hrestore hspares h₁

namespace Release

variable {v : Release}

theorem Told.quiet (h : Unsettled v.beneficiary v.effect t) {result : Except Failure ReleaseDisposition} :
    v.Told faults result t := by
  rintro d - row hrow hsome
  obtain ⟨row', hrow', hnone⟩ := h
  cases hrow.symm.trans hrow'
  rw [hnone] at hsome
  cases hsome

theorem giveBack_told (hv : call.checked = .ok (.release v)) (h : Unsettled v.beneficiary v.effect t) :
    (v.giveBack env).Safe faults call.rely (fun _ _ => True) (fun a _ t => v.Told faults a t) own t := by
  refine (Program.safe_bind _ _ _ _).mpr ?_
  have hrun : (v.completion.run env).Safe faults call.rely (fun _ _ => True)
      (fun a _ t => v.completion.Told faults a t) own t :=
    Completion.run_told rfl (fun t t' hr hu => hr.2 v hv hu) h
  refine hrun.mono (fun _ _ _ _ => trivial) fun a own t ha => ?_
  cases a with
  | error failure => exact fun _ hd => by cases hd
  | ok restored =>
    obtain ⟨disposition, finalization⟩ := restored
    rcases ha disposition finalization rfl with rfl | rfl | hu | ⟨hf, rfl⟩
    · exact fun d hd _ _ _ => .inl (by cases hd; rfl)
    · exact fun d hd _ _ _ => .inl (by cases hd; rfl)
    · cases disposition <;> exact Told.quiet hu
    · exact fun d hd _ _ _ => .inr (.inr ⟨hf, by cases hd; rfl⟩)

theorem usage_spares (hv : call.checked = .ok (.release v)) {u : Usage} (hb : u.beneficiary = v.beneficiary)
    (he : u.effect = v.effect) (h : Unsettled v.beneficiary v.effect t) :
    (u.run env).Safe faults call.rely (fun _ _ => True) (fun _ _ t => Unsettled v.beneficiary v.effect t) [] t := by
  refine (((u.run_safe env faults t).along (J := call.rely) (H := fun _ _ => True) h (fun _ h => h)
    (fun _ _ hr => hr.1) (fun t t' hu hr => hr.2 v hv hu) fun t t' hl hu hc => ⟨trivial, ?_⟩)).mono
      (fun _ _ _ h => h) fun _ _ _ ha => ha.2
  cases hc with
  | mk current week counter plan effect reserved week_of stored absent planned =>
    have hphase := (Ledger.effects hl _ _ _ effect).phase
    simp only [EffectRow.Phase, reserved] at hphase
    refine ⟨plan.effect, ?_, by rw [planned.effect]; exact hphase.2.2⟩
    rw [← hb, ← he, Table.row_set_of_ne _ _ (by simp), Table.row_set_self]

theorem run_told (hv : call.checked = .ok (.release v)) :
    (v.run env).Safe faults call.rely (fun _ _ => True) (fun a _ t => v.Told faults a t) [] t := by
  refine Program.safe_read fun t₁ _ hl₁ => ⟨?_, fun hf => ?_⟩
  on_goal 2 => exact fun d hd _ _ _ => .inr (.inr ⟨hf, by cases hd; rfl⟩)
  cases hrow : t₁.row (.effect v.beneficiary v.effect) with
  | none =>
    intro d _ row hrow'
    cases hrow.symm.trans hrow'
  | some raw =>
    dsimp only
    have hsound := Ledger.effects hl₁ _ _ _ hrow
    have hphase := hsound.phase
    simp only [validatedEffect_of hsound, storedCount_of hsound.readable.inputTokens,
      storedCount_of hsound.readable.outputTokens]
    cases hstate : raw.state with
    | finalized => exact fun d hd _ _ _ => .inr (.inl (by cases hd; rfl))
    | restored => exact fun d hd _ _ _ => .inr (.inl (by cases hd; rfl))
    | observed =>
      simp only [EffectRow.Phase, hstate] at hphase
      exact giveBack_told hv ⟨raw, hrow, hphase.2.2⟩
    | reserved =>
      simp only [EffectRow.Phase, hstate] at hphase
      refine (Program.safe_bind _ _ _ _).mpr ?_
      refine (usage_spares hv rfl rfl ⟨raw, hrow, hphase.2.2⟩).mono (fun _ _ _ h => h) fun a own t hu => ?_
      cases a with
      | error failure => exact fun _ hd => by cases hd
      | ok recorded =>
        obtain ⟨disposition, evidence⟩ := recorded
        cases disposition with
        | recorded => exact giveBack_told hv hu
        | replayed => exact giveBack_told hv hu
        | idempotencyConflict => exact .quiet hu
        | invalidState => exact .quiet hu
        | retryable => exact .quiet hu

end Release

/-- What a release owes where the others leave its effect alone. -/
theorem Call.body_told (call : Call env) (t : Table Key Row) :
    call.body.Safe faults call.rely (fun _ _ => True)
      (fun result _ t => ∀ v, call.checked = .ok (.release v) →
        ∃ a, result = .of .release a ∧ v.Told faults a t) [] t := by
  rw [body_eq]
  split
  · rename_i x hx
    by_cases hrelease : ∃ v, x = .release v
    · obtain ⟨v, rfl⟩ := hrelease
      refine (Program.safe_bind _ _ _ _).mpr ?_
      refine (Release.run_told hx).mono (fun _ _ _ h => h) fun a own t ha v' hv' => ?_
      cases hx.symm.trans hv'
      exact ⟨a, rfl, ha⟩
    · refine ((x.run_safe faults t).along (J := call.rely) (H := fun _ _ => True) (U := fun _ => True) trivial
        (fun _ h => h) (fun _ _ hr => hr.1) (fun _ _ _ _ => trivial) fun _ _ _ _ _ => ⟨trivial, trivial⟩).mono
          (fun _ _ _ h => h) fun a own t _ v hv => ?_
      cases hx.symm.trans hv
      exact absurd ⟨v, rfl⟩ hrelease
  · rename_i failure hx
    intro v hv
    rw [hx] at hv
    cases hv

end Answers

/-! ## Every run -/

/-- No step settles the effect of a release of another call that is past its first read. -/
def LeavesReleases (s s' : State Key Row (Call env) (Result env)) : Prop :=
  ∀ i call p v, s.running i = some (call, p) → s'.running i = some (call, p) → p ≠ call.body →
    call.checked = .ok (.release v) → ¬ Completion.Settles v.beneficiary v.effect s.table s'.table

/-- Once its usage is known an effect has exactly one evidence row, with what the
provider has reported or with the ceiling. -/
def EvidencedOnce (s : State Key Row (Call env) (Result env)) : Prop :=
  ∀ b e row, s.table.row (.effect b e) = some row → row.state ≠ .reserved →
    ∃ x item, (s.table.row (.providerUsage b x) = some item ∧ item.effectId = e) ∧
      (∀ x' item', s.table.row (.providerUsage b x') = some item' → item'.effectId = e → x' = x) ∧
      item.Justified s.history b row

/-- The reservation of an effect is given back by at most one commit. -/
def GivenBackOnce (s : State Key Row (Call env) (Result env)) : Prop :=
  ∀ b e, s.history.Pairwise fun later earlier =>
    ¬ (Completion.Settles b e later.before later.after ∧ Completion.Settles b e earlier.before earlier.after)

theorem booked_sound {faults : Faults} {t : Table Key Row} {s : State Key Row (Call env) (Result env)}
    (hfresh : Fresh t) (h : Reachable (service env faults) t s) :
    Sound (bookedContract env faults) (fun _ call result _ t => ∀ v, call.checked = .ok (.release v) →
      ∃ a, result = .of .release a ∧ v.Gave env a t) s :=
  Reachable.sound h hfresh.ledger fun call u _ => call.body_books faults u

theorem accounted {faults : Faults} {t : Table Key Row} {s : State Key Row (Call env) (Result env)}
    (hfresh : Fresh t) (h : Reachable (service env faults) t s) :
    Accounted env s.history s.table ∧ ∀ r ∈ s.returned, ∃ older ⊆ s.history, Accounted env older r.table :=
  h.traced (Γ := bookedContract env faults) (R := fun _ _ => True) hfresh.ledger
    (fun call u _ => call.body_books faults u) (.fresh hfresh) (fun _ _ hl hc _ ha => ha.books hl hc)
    (fun _ _ _ _ ha hd => ha.drift hd) fun _ _ => trivial

theorem Accounted.once {s : State Key Row (Call env) (Result env)} (h : Accounted env s.history s.table) :
    EvidencedOnce s := by
  intro b e row hrow hstate
  obtain ⟨item, hitem, heq⟩ := h.effect b e row hrow hstate
  obtain ⟨-, row', hrow', -, hjustified⟩ := h.evidence b _ item hitem
  rw [heq] at hrow'
  cases hrow.symm.trans hrow'
  refine ⟨_, item, ⟨hitem, heq⟩, fun x' item' hitem' heffect => ?_, hjustified⟩
  rw [(h.evidence b x' item' hitem').1, heffect]

theorem given_back_once {faults : Faults} {s : State Key Row (Call env) (Result env)}
    {Q : ℕ → Call env → Post Key Row (Result env)} (h : Sound (bookedContract env faults) Q s) :
    GivenBackOnce s := fun b e => by
  refine h.ordered.imp ?_
  intro later earlier hordered hboth
  obtain ⟨row, hrow, hnone⟩ := hboth.1.1
  obtain ⟨row', hrow', hsome⟩ := hboth.2.2
  obtain ⟨row'', hrow'', hext⟩ := Keeps.effect hordered.1 _ _ _ hrow'
  cases hrow.symm.trans hrow''
  rw [hext.finalized hsome] at hnone
  rw [hnone] at hsome
  cases hsome

theorem Result.of_release {a : Except Failure ReleaseDisposition} {d : ReleaseDisposition}
    (h : (Result.of .release a : Result env) = .release d) : a = .ok d := by
  cases a with
  | error failure => cases h
  | ok x => rw [Result.release.inj h]

/-- Whatever the calls do, an effect has one evidence row, its reservation is given back
once, and `released` means restored. Where nobody else settles the effect between the first
read of a release and its return, the release says so if the effect is settled. -/
theorem unknown_cost_released {faults : Faults} {t : Table Key Row} (hfresh : Fresh t)
    (hdigest : ∀ b e flags, env.payloadDigest (.finalization b e flags) ≠
      env.payloadDigest (.restoration b e ⟨false, false, false, false⟩)) :
    (∀ s, Reachable (service env faults) t s → EvidencedOnce s ∧ GivenBackOnce s ∧
      ∀ r ∈ s.returned, ∀ v, r.call.checked = .ok (.release v) → r.result = .release .released →
        stateOf r.table v.beneficiary v.effect = some .restored) ∧
    ∀ s, StepsWhere (service env faults) LeavesReleases (.initial t) s →
      ∀ r ∈ s.returned, ∀ v d state, r.call.checked = .ok (.release v) → r.result = .release d →
        stateOf r.table v.beneficiary v.effect = some state → Completion.IsSettled state →
        d = .released ∨ d = .alreadySettled ∨ faults.readRaises ∧ d = .retryable := by
  refine ⟨fun s hs => ?_, fun s hs r hr v d state hv hd hstate hsettled => ?_⟩
  · have hsound := booked_sound hfresh hs
    obtain ⟨haccounted, hreturned⟩ := accounted hfresh hs
    refine ⟨haccounted.once, given_back_once hsound, fun r hr v hv hresult => ?_⟩
    obtain ⟨howes, -⟩ := hsound.returned r hr
    obtain ⟨a, ha, hgave⟩ := howes v hv
    obtain ⟨row, fin, hrow, hfin, hrestored⟩ := hgave (Result.of_release (ha.symm.trans hresult))
    obtain ⟨older, -, hthen⟩ := hreturned r hr
    have hpayload := hthen.digest _ _ row fin hrow hfin
    rw [stateOf, hrow]
    by_cases hstate : row.state = .restored
    · rw [Option.map_some, hstate]
    · rw [if_neg hstate] at hpayload
      exact absurd (hpayload.symm.trans hrestored) (hdigest _ _ _)
  · have htold := hs.shielded (I := Call.rely) (Q := fun call result _ t => ∀ v, call.checked = .ok (.release v) →
        ∃ a, result = .of .release a ∧ v.Told faults a t)
      (fun m hm call => (booked_sound hfresh hm).inv) (fun call u _ => call.body_told u)
      (fun m m' hm hstep hleaves i call p hi hi' hp => ?_) r hr
    · obtain ⟨a, ha, hsays⟩ := htold v hv
      have hrow := hstate
      rw [stateOf, Option.map_eq_some_iff] at hrow
      obtain ⟨row, hrow, rfl⟩ := hrow
      have hl := ((booked_sound hfresh hs.steps).returned r hr).2.2.2.1
      obtain ⟨fin, -, hfin, -⟩ := (Ledger.effects hl _ _ _ hrow).phase.finalization hsettled
      exact hsays d (Result.of_release (ha.symm.trans hd)) row hrow (by simp [hfin])
    · have hkeeps : Keeps m.table m'.table := by
        rcases (booked_sound hfresh hm).step_table hstep with heq | hdrift | ⟨e, -, -, -, hmove⟩
        · rw [heq]
          exact .refl _
        · exact FenceDrift.keeps hdrift
        · exact Call.Commits.keeps (booked_sound hfresh hm).inv (Call.Books.commits hmove)
      exact ⟨hkeeps, Call.spares_of_keeps hkeeps fun v hv => hleaves i call p v hi hi' hp hv⟩

section

variable {env : Env} {faults : Faults}

theorem body_reserve {r : ReserveRequest env} {v : Reserve env} (h : r.checked = .ok v) :
    (service env faults).body (.reserve r) = v.run.bind fun a => .ret (.of .reservation a) := by
  change (reserveAllowance r).bind _ = _
  rw [reserveAllowance, h]

theorem body_record {r : UsageRequest} {u : Usage} (h : r.checked = .ok u) :
    (service env faults).body (.record r) = (u.run env).bind fun a => .ret (.of .usage a) := by
  change (recordProviderUsage env r).bind _ = _
  rw [recordProviderUsage, h]

theorem body_finalize {r : CompletionRequest} {c : Completion} (h : r.checked false = .ok c) :
    (service env faults).body (.finalize r) = (c.run env).bind fun a => .ret (.of .finalization a) := by
  change (finalizeAllowance env r).bind _ = _
  rw [finalizeAllowance, completeAllowance, h]

theorem body_release {r : ReleaseRequest} {v : Release} (h : r.checked = .ok v) :
    (service env faults).body (.release r) = (v.run env).bind fun a => .ret (.of .release a) := by
  change (releaseUnknownCost env r).bind _ = _
  rw [releaseUnknownCost, h]

end

namespace Sample

def releaseEffect : Call sampleEnv := .release {
  beneficiaryId := "student"
  effectId := String.ofList (List.replicate 64 '7')
  releasedAt := 1774300001000000 }

def recordUsage : Call sampleEnv := .record {
  beneficiaryId := "student"
  effectId := String.ofList (List.replicate 64 '7')
  providerRequestIdDigest := String.ofList (List.replicate 64 '8')
  modelIdDigest := String.ofList (List.replicate 64 '9')
  inputTokens := 30
  outputTokens := 5
  observedAt := 1774300000500000 }

def finalizeEffect : Call sampleEnv := .finalize {
  beneficiaryId := "student"
  effectId := String.ofList (List.replicate 64 '7')
  flags := ⟨true, true, true, true⟩
  finalizedAt := 1774300000600000 }

/-! The arguments are checked once, by lemmas. -/

theorem isRequiredText_digestOf {c : Char} (h : isLowerHex c = true)
    (hstrip : strip (List.replicate 64 c) = List.replicate 64 c) : IsRequiredText 64 (digestOf c h).val := by
  refine ⟨?_, by simp [digestOf], by simp [digestOf]⟩
  rw [digestOf, String.toList_ofList, hstrip]

theorem sha256_digestOf {c : Char} (h : isLowerHex c = true)
    (hstrip : strip (List.replicate 64 c) = List.replicate 64 c) (field : String) :
    sha256 (String.ofList (List.replicate 64 c)) field = .ok (digestOf c h) := by
  have htext : IsRequiredText 64 (String.ofList (List.replicate 64 c)) := isRequiredText_digestOf h hstrip
  rw [sha256, if_pos htext]
  exact dif_pos (isSha256_replicate c h)

theorem requiredText_student (field : String) : requiredText "student" field = .ok student :=
  dif_pos student.property

theorem sha256_effect : sha256 (String.ofList (List.replicate 64 '7')) "effect_id" =
    .ok (digestOf '7' isLowerHex_7) := sha256_digestOf _ (by decide) _

theorem forty_isCount : IsCount 40 := by decide

theorem ten_isCount : IsCount 10 := by decide

theorem thirty_isCount : IsCount 30 := by decide

theorem five_isCount : IsCount 5 := by decide

theorem forty_and_ten : (⟨40, forty_isCount⟩ : Count).val + (⟨10, ten_isCount⟩ : Count).val ≠ 0 := by decide

def reservation : Reserve sampleEnv where
  beneficiary := student
  effect := digestOf '7' isLowerHex_7
  week := week
  budget := budget
  requestedInput := ⟨40, forty_isCount⟩
  requestedOutput := ⟨10, ten_isCount⟩
  now := 1774300000000000
  accountFenceGeneration := none
  at_least_one := forty_and_ten

theorem reserveTokens_body : (service sampleEnv .strongReads).body (reserveTokens 40) =
    reservation.run.bind fun a => .ret (.of .reservation a) := by
  have hinput : exactCount 40 "input_tokens" = .ok reservation.requestedInput := dif_pos _
  have houtput : exactCount 10 "output_tokens" = .ok reservation.requestedOutput := dif_pos _
  refine body_reserve ?_
  simp only [ReserveRequest.checked, requiredText_student, sha256_effect, hinput, houtput]
  rfl

def release : Release where
  beneficiary := student
  effect := digestOf '7' isLowerHex_7
  now := 1774300001000000

theorem releaseEffect_body : (service sampleEnv .strongReads).body releaseEffect =
    (release.run sampleEnv).bind fun a => .ret (.of .release a) := by
  refine body_release ?_
  simp only [ReleaseRequest.checked, requiredText_student, sha256_effect]
  rfl

def usage : Usage where
  beneficiary := student
  effect := digestOf '7' isLowerHex_7
  requestDigest := digestOf '8' isLowerHex_8
  providerModelDigest := digestOf '9' isLowerHex_9
  actualInput := ⟨30, thirty_isCount⟩
  actualOutput := ⟨5, five_isCount⟩
  now := 1774300000500000
  unknownCost := false

theorem recordUsage_body : (service sampleEnv .strongReads).body recordUsage =
    (usage.run sampleEnv).bind fun a => .ret (.of .usage a) := by
  have hinput : exactCount 30 "input_tokens" = .ok usage.actualInput := dif_pos _
  have houtput : exactCount 5 "output_tokens" = .ok usage.actualOutput := dif_pos _
  refine body_record ?_
  simp only [UsageRequest.checked, requiredText_student, sha256_effect, hinput, houtput,
    sha256_digestOf isLowerHex_8 (by decide), sha256_digestOf isLowerHex_9 (by decide)]
  rfl

theorem finalized_delivered : false ≠ (⟨true, true, true, true⟩ : DeliveryFlags).delivered := by decide

def completion : Completion where
  beneficiary := student
  effect := digestOf '7' isLowerHex_7
  restore := false
  flags := ⟨true, true, true, true⟩
  now := 1774300000600000
  outcome := finalized_delivered

theorem finalizeEffect_body : (service sampleEnv .strongReads).body finalizeEffect =
    (completion.run sampleEnv).bind fun a => .ret (.of .finalization a) := by
  refine body_finalize ?_
  simp only [CompletionRequest.checked, requiredText_student, sha256_effect]
  rfl

def releaseDisposition : Result sampleEnv → Option ReleaseDisposition
  | .release disposition => some disposition
  | _ => none

/-- A reservation is released. -/
def released : State Key Row (Call sampleEnv) (Result sampleEnv) :=
  reserved.solo (service sampleEnv .strongReads) releaseEffect []

theorem released_moves : StepsWhere (service sampleEnv .strongReads) Moves (.initial start) released := by
  have hreserved : StepsWhere (service sampleEnv .strongReads) Moves (.initial start) reserved :=
    StepsWhere.solo_moves .refl (fun _ => rfl) trivial
  refine hreserved.solo_moves (reserved_reachable.booked.idle ?_) trivial
  rw [reserved, State.solo, reserveTokens_body]
  decide

/-- A release has read its effect when the effect is finalized. -/
def finalizedMeanwhile : State Key Row (Call sampleEnv) (Result sampleEnv) :=
  ((((reserved.solo (service sampleEnv .strongReads) recordUsage []).launch
    (service sampleEnv .strongReads) releaseEffect).advance 2 1).solo
      (service sampleEnv .strongReads) finalizeEffect []).finish 2 []

theorem finalizedMeanwhile_reachable :
    Reachable (service sampleEnv .strongReads) start finalizedMeanwhile :=
  ((((reserved_reachable.trans (State.solo_steps trivial trivial trivial [])).trans
    (State.launch_steps trivial)).trans (State.advance_steps 2 1 _)).trans
      (State.solo_steps trivial trivial trivial [])).trans (State.finish_steps trivial trivial 2 [] _)

end Sample

theorem unknown_cost_released_sample :
    (EvidencedOnce Sample.released ∧ GivenBackOnce Sample.released) ∧
    (∀ r ∈ Sample.released.returned, ∀ v d state, r.call.checked = .ok (.release v) → r.result = .release d →
      stateOf r.table v.beneficiary v.effect = some state → Completion.IsSettled state →
      d = .released ∨ d = .alreadySettled) ∧
    (Sample.released.returned.head?.map fun r => (Sample.releaseDisposition r.result,
      stateOf r.table Sample.student (Sample.digestOf '7' isLowerHex_7))) = some (some .released, some .restored) := by
  obtain ⟨hruns, hanswers⟩ := @unknown_cost_released Sample.sampleEnv .strongReads Sample.start Sample.start_fresh
    fun _ _ _ => by
      change Sample.digestOf 'd' isLowerHex_d ≠ Sample.digestOf 'e' isLowerHex_e
      decide
  obtain ⟨hevidenced, hgiven, -⟩ := hruns _ Sample.released_moves.steps
  refine ⟨⟨hevidenced, hgiven⟩, fun r hr v d state hv hd hstate hsettled => ?_, ?_⟩
  rotate_left
  · rw [Sample.released, Sample.reserved, State.solo, State.solo, Sample.releaseEffect_body,
      Sample.reserveTokens_body]
    rfl
  have hleaves : StepsWhere (service Sample.sampleEnv .strongReads) LeavesReleases
      (.initial Sample.start) Sample.released :=
    Sample.released_moves.imp fun m m' hmoves i call p v hi hi' => absurd hi' (hmoves i call p hi)
  rcases hanswers _ hleaves r hr v d state hv hd hstate hsettled with h | h | ⟨h, -⟩
  · exact .inl h
  · exact .inr h
  · exact h.elim

/-- A release that has read its effect as observed answers `invalid_state`, although the
effect is finalized when it returns. -/
theorem finalized_meanwhile_invalid :
    Reachable (service Sample.sampleEnv .strongReads) Sample.start Sample.finalizedMeanwhile ∧
    (Sample.finalizedMeanwhile.returned.head?.map fun r => (Sample.releaseDisposition r.result,
      stateOf r.table Sample.student (Sample.digestOf '7' isLowerHex_7))) = some (some .invalidState, some .finalized) := by
  refine ⟨Sample.finalizedMeanwhile_reachable, ?_⟩
  rw [Sample.finalizedMeanwhile, Sample.reserved]
  simp only [State.solo, State.launch, Sample.reserveTokens_body, Sample.recordUsage_body,
    Sample.releaseEffect_body, Sample.finalizeEffect_body]
  rfl

end Stoa.Allowance
