import Stoa.Store.Interleaving
import Mathlib.Data.List.Pairwise

/-! # Consequences of soundness for whole runs -/

namespace RowStore

variable {K : Type} {V : K → Type} {C α : Type} [DecidableEq K]
  {S : Service K V C α} {Γ : Contract S} {Q : ℕ → C → Post K V α} {s s' : State K V C α}

/-! ## Results -/

/-- A postcondition may be exchanged for the identities already given out. -/
theorem Sound.exchange {Q' : ℕ → C → Post K V α} (h : Sound Γ Q s)
    (hQ : ∀ i, i < s.next → ∀ c a own t, Q i c a own t → Q' i c a own t) :
    Sound Γ Q' s where
  inv := h.inv
  running := by
    intro i c p hi
    obtain ⟨hsafe, hres⟩ := h.running i c p hi
    exact ⟨hsafe.mono (fun _ _ _ hg => hg) (hQ i (h.running_fresh i c p hi).1 c), hres⟩
  running_fresh := h.running_fresh
  returned := by
    intro r hr
    obtain ⟨hq, hlt, hrest⟩ := h.returned r hr
    exact ⟨hQ _ hlt _ _ _ _ hq, hlt, hrest⟩
  returned_once := h.returned_once
  history := h.history
  history_time := h.history_time
  ordered := h.ordered

/-- Every reachable state is sound for a postcondition that every call owes
wherever it is started. -/
theorem Reachable.sound {t : Table K V} (h : Reachable S t s) (hinv : Γ.Inv t)
    {Q : C → Post K V α} (hstart : ∀ c u, Γ.Inv u →
      (S.body c).Safe S.faults Γ.toInterference (Γ.Move c) (Q c) [] u) :
    Sound Γ (fun _ => Q) s :=
  ((Sound.initial hinv).steps h fun _ c u _ hu _ => hstart c u hu).1

/-- What the calls started after `s` return, when they are safe on every table
that can follow the one of `s`. The calls under way in `s` only keep the rely. -/
theorem Sound.later (h : Sound Γ Q s) (hrun : Steps S s s') {P : C → Post K V α}
    (hstart : ∀ c t, Γ.Inv t → Γ.Rely s.table t →
      (S.body c).Safe S.faults Γ.toInterference (Γ.Move c) (P c) [] t) :
    ∀ r ∈ s'.returned, s.next ≤ r.id → P r.call r.result (s'.commits r.id) r.table := by
  let Q' : ℕ → C → Post K V α := fun i c a own t => s.next ≤ i → P c a own t
  have hs : Sound Γ Q' s := h.exchange fun i hi c a own t _ hle => absurd hle (by omega)
  have hend : Sound Γ Q' s' := by
    refine (hs.steps hrun fun i c t hi ht hr => ?_).1
    exact (hstart c t ht hr).mono (fun _ _ _ hg => hg) fun a own t hp _ => hp
  intro r hr hle
  exact (hend.returned r hr).1 hle

/-- A call returns once. -/
theorem Sound.returned_unique (h : Sound Γ Q s) {r r' : Return K V C α}
    (hr : r ∈ s.returned) (hr' : r' ∈ s.returned) (hid : r.id = r'.id) : r = r' :=
  List.inj_on_of_nodup_map h.returned_once hr hr' hid

/-! ## Commits -/

omit [DecidableEq K] in
theorem State.mem_commits {i : ℕ} {p : Table K V × Table K V} :
    p ∈ s.commits i ↔ ∃ e ∈ s.history, e.id = i ∧ (e.before, e.after) = p := by
  simp [State.commits, and_assoc]

/-- A change that can happen only once is made by one entry of the history. -/
theorem Sound.commit_unique (h : Sound Γ Q s) {P : Table K V → Table K V → Prop}
    (hP : ∀ e ∈ s.history, ∀ t u, P e.before e.after → Γ.Rely e.after t → ¬ P t u)
    {e e' : Commit K V C} (he : e ∈ s.history) (he' : e' ∈ s.history)
    (hp : P e.before e.after) (hp' : P e'.before e'.after) : e = e' := by
  let R : Commit K V C → Commit K V C → Prop := fun a b =>
    ¬ (P a.before a.after ∧ P b.before b.after)
  have hsymm : Std.Symm R := ⟨fun a b hab hba => hab hba.symm⟩
  have hpair : s.history.Pairwise R := by
    refine h.ordered.imp_of_mem ?_
    intro later earlier _ hearlier hrely hboth
    exact hP earlier hearlier _ _ hboth.2 hrely.1 hboth.1
  by_contra hne
  exact hpair.forall he he' hne ⟨hp, hp'⟩

/-- A change that can happen only once is made by one of the calls that returned. -/
theorem Sound.returned_eq_of_change (h : Sound Γ Q s) {P : Table K V → Table K V → Prop}
    (hP : ∀ t u t' u', P t u → Γ.Rely u t' → ¬ P t' u') {r r' : Return K V C α}
    (hr : r ∈ s.returned) (hr' : r' ∈ s.returned)
    (hp : ∃ p ∈ s.commits r.id, P p.1 p.2) (hp' : ∃ p ∈ s.commits r'.id, P p.1 p.2) :
    r = r' := by
  obtain ⟨p, hmem, hpp⟩ := hp
  obtain ⟨p', hmem', hpp'⟩ := hp'
  obtain ⟨e, he, hid, rfl⟩ := State.mem_commits.mp hmem
  obtain ⟨e', he', hid', rfl⟩ := State.mem_commits.mp hmem'
  have heq : e = e' := h.commit_unique
    (fun d _ t u hd hrely => hP d.before d.after t u hd hrely) he he' hpp hpp'
  exact h.returned_unique hr hr' (by rw [← hid, ← hid', heq])

/-! ## Calls -/

/-- Every commit is of a call that is running or has returned, and a call returns once. -/
structure State.Booked (s : State K V C α) : Prop where
  fresh : ∀ i, s.next ≤ i → s.running i = none
  committed : ∀ e ∈ s.history, (∃ p, s.running e.id = some (e.call, p)) ∨
    ∃ r ∈ s.returned, r.id = e.id ∧ r.call = e.call
  ended : ∀ r ∈ s.returned, s.running r.id = none ∧ r.id < s.next
  returned_once : (s.returned.map Return.id).Nodup

namespace State.Booked

omit [DecidableEq K] in
theorem resume {i : ℕ} {c : C} {p : Program K V α} (hlt : i < s.next)
    (hfresh : ∀ j, s.next ≤ j → s.running j = none)
    (hcommitted : ∀ e ∈ s.history, (e.id = i ∧ e.call = c) ∨
      (∃ q, s.running e.id = some (e.call, q)) ∨ ∃ r ∈ s.returned, r.id = e.id ∧ r.call = e.call)
    (hrunning : ∀ d q, s.running i = some (d, q) → d = c)
    (hended : ∀ r ∈ s.returned, r.id ≠ i ∧ s.running r.id = none ∧ r.id < s.next)
    (honce : (s.returned.map Return.id).Nodup) : (s.resume i c p).Booked := by
  cases hres : p.result? with
  | none =>
      have hrun : (s.resume i c p).running = Function.update s.running i (some (c, p)) := by
        simp [State.resume, hres]
      have hret : (s.resume i c p).returned = s.returned := by simp [State.resume, hres]
      refine ⟨fun j hj => ?_, fun e he => ?_, fun r hr => ?_, by rw [hret]; exact honce⟩
      · rw [hrun, Function.update_of_ne (hlt.trans_le hj).ne']
        exact hfresh j hj
      · rw [hrun, hret]
        by_cases hei : e.id = i
        · refine .inl ⟨p, ?_⟩
          rw [hei, Function.update_self]
          rcases hcommitted e he with ⟨-, rfl⟩ | ⟨q, hq⟩ | ⟨r, hr, hid, -⟩
          · rfl
          · rw [hrunning e.call q (hei ▸ hq)]
          · exact absurd (hid.trans hei) (hended r hr).1
        · rw [Function.update_of_ne hei]
          exact (hcommitted e he).resolve_left fun h => hei h.1
      · rw [hret] at hr
        obtain ⟨hne, hnone, hid⟩ := hended r hr
        exact ⟨by rw [hrun, Function.update_of_ne hne]; exact hnone, hid⟩
  | some a =>
      have hrun : (s.resume i c p).running = Function.update s.running i none := by
        simp [State.resume, hres]
      have hret : (s.resume i c p).returned = ⟨i, c, a, s.table⟩ :: s.returned := by
        simp [State.resume, hres]
      refine ⟨fun j hj => ?_, fun e he => ?_, fun r hr => ?_, ?_⟩
      · rw [hrun, Function.update_of_ne (hlt.trans_le hj).ne']
        exact hfresh j hj
      · rw [hrun, hret]
        by_cases hei : e.id = i
        · refine .inr ⟨_, List.mem_cons_self .., hei.symm, ?_⟩
          rcases hcommitted e he with ⟨-, rfl⟩ | ⟨q, hq⟩ | ⟨r, hr, hid, -⟩
          · rfl
          · exact (hrunning e.call q (hei ▸ hq)).symm
          · exact absurd (hid.trans hei) (hended r hr).1
        · rw [Function.update_of_ne hei]
          refine ((hcommitted e he).resolve_left fun h => hei h.1).imp_right ?_
          rintro ⟨r, hr, hrest⟩
          exact ⟨r, List.mem_cons_of_mem _ hr, hrest⟩
      · rw [hret] at hr
        rcases List.mem_cons.mp hr with rfl | hr
        · exact ⟨by rw [hrun, Function.update_self], hlt⟩
        · obtain ⟨hne, hnone, hid⟩ := hended r hr
          exact ⟨by rw [hrun, Function.update_of_ne hne]; exact hnone, hid⟩
      · rw [hret, List.map_cons, List.nodup_cons]
        refine ⟨fun hmem => ?_, honce⟩
        obtain ⟨r, hr, hid⟩ := List.mem_map.mp hmem
        exact (hended r hr).1 hid

omit [DecidableEq K] in
/-- Nothing runs where no call that was started does. -/
theorem idle (h : s.Booked) (hnone : ∀ i < s.next, (s.running i).isNone = true) (i : ℕ) :
    s.running i = none := by
  by_cases hi : i < s.next
  · exact Option.isNone_iff_eq_none.mp (hnone i hi)
  · exact h.fresh i (not_lt.mp hi)

theorem step (h : s.Booked) (hstep : Step S s s') : s'.Booked := by
  have hother : ∀ {i c p}, s.running i = some (c, p) →
      ∀ r ∈ s.returned, r.id ≠ i ∧ s.running r.id = none ∧ r.id < s.next := fun {i c p} hi r hr => by
    obtain ⟨hnone, hid⟩ := h.ended r hr
    refine ⟨?_, hnone, hid⟩
    rintro rfl
    cases hnone.symm.trans hi
  have hlt : ∀ {i c p}, s.running i = some (c, p) → i < s.next := fun {i c p} hi => by
    by_contra hge
    cases (h.fresh i (not_lt.mp hge)).symm.trans hi
  have hcall : ∀ {i c p}, s.running i = some (c, p) → ∀ d q, s.running i = some (d, q) → d = c :=
    fun hi d q hd => by
      cases hi.symm.trans hd
      rfl
  have hsame : ∀ {i c p}, s.running i = some (c, p) → ∀ q, (s.resume i c q).Booked :=
    fun hi q => resume (hlt hi) h.fresh (fun e he => .inr (h.committed e he)) (hcall hi) (hother hi)
      h.returned_once
  have hcommit : ∀ {i c p ops}, s.running i = some (c, p) →
      ∀ q, ((s.commit i c ops).resume i c q).Booked := fun {i c p ops} hi q => by
    refine resume (s := s.commit i c ops) (hlt hi) h.fresh (fun e he => ?_) (hcall hi) (hother hi)
      h.returned_once
    rcases List.mem_cons.mp he with rfl | he
    · exact .inl ⟨rfl, rfl⟩
    · exact .inr (h.committed e he)
  cases hstep with
  | start c hc =>
      refine resume (s := s.open_) (Nat.lt_succ_self _) (fun j hj => h.fresh j (Nat.le_of_succ_le hj))
        (fun e he => .inr (h.committed e he)) (fun d q hd => ?_) (fun r hr => ?_) h.returned_once
      · cases (h.fresh s.next le_rfl).symm.trans hd
      · obtain ⟨hnone, hid⟩ := h.ended r hr
        exact ⟨hid.ne, hnone, hid.trans (Nat.lt_succ_self _)⟩
  | read i c k next hi => exact hsame hi _
  | readRaises i c k next hi hf => exact hsame hi _
  | query i c select next rows hi ha => exact hsame hi _
  | queryRaises i c select next hi hf => exact hsame hi _
  | refused i c ops next hi hf => exact hsame hi _
  | committed i c ops next hi ha => exact hcommit hi _
  | responseLost i c ops next hi ha hf => exact hcommit hi _
  | drift t ht => exact ⟨h.fresh, h.committed, h.ended, h.returned_once⟩
  | tick n hn => exact ⟨h.fresh, h.committed, h.ended, h.returned_once⟩

end State.Booked

theorem Reachable.booked {t : Table K V} (h : Reachable S t s) : s.Booked := by
  induction h with
  | refl => exact ⟨fun _ _ => rfl, by simp [State.initial], by simp [State.initial], by simp [State.initial]⟩
  | tail _ hstep ih => exact ih.step hstep

/-! ## Histories grow -/

theorem Step.history_suffix (h : Step S s s') : s.history <:+ s'.history := by
  cases h with
  | committed i c ops next hi ha => exact List.suffix_cons _ _
  | responseLost i c ops next hi ha hf => exact List.suffix_cons _ _
  | _ => exact List.suffix_refl _

theorem Steps.history_suffix (h : Steps S s s') : s.history <:+ s'.history := by
  induction h with
  | refl => exact List.suffix_refl _
  | tail _ hstep ih => exact ih.trans hstep.history_suffix

theorem Step.history_subset (h : Step S s s') : s.history ⊆ s'.history := h.history_suffix.subset

theorem Steps.history_subset (h : Steps S s s') : s.history ⊆ s'.history := h.history_suffix.subset

/-- An invariant that is kept by every move meeting a condition holds in every
state of a run whose commits all meet it. -/
theorem Sound.invariant (h : Sound Γ Q s) (hrun : Steps S s s')
    (hstart : ∀ i c t, s.next ≤ i → Γ.Inv t → Γ.Rely s.table t →
      (S.body c).Safe S.faults Γ.toInterference (Γ.Move c) (Q i c) [] t)
    {J : Table K V → Prop} {Cond : C → Table K V → Prop} (hJ : J s.table)
    (hmove : ∀ c t t', Γ.Inv t → J t → Cond c t → Γ.Move c t t' → J t')
    (hdrift : ∀ t t', Γ.Inv t → J t → S.drift t t' → J t')
    (hcond : ∀ e ∈ s'.history, Cond e.call e.before) : J s'.table := by
  induction hrun with
  | refl => exact hJ
  | @tail m m' hrun hstep ih =>
      have hm := (h.steps hrun hstart).1
      have hJm : J m.table := ih fun e he => hcond e (hstep.history_subset he)
      cases hstep with
      | committed i c ops next hi ha =>
          obtain ⟨hmv, -⟩ := ((hm.running i c _ hi).1 _ (Γ.refl _) hm.inv).2 ha
          exact hmove c _ _ hm.inv hJm
            (hcond _ (List.mem_cons_self ..)) hmv
      | responseLost i c ops next hi ha hf =>
          obtain ⟨hmv, -⟩ := ((hm.running i c _ hi).1 _ (Γ.refl _) hm.inv).2 ha
          exact hmove c _ _ hm.inv hJm
            (hcond _ (List.mem_cons_self ..)) hmv
      | drift t ht => exact hdrift _ _ hm.inv hJm ht
      | _ => exact hJm

/-! ## Tracing tables to commits -/

omit [DecidableEq K] in
/-- A call that returns does so on the table as it is. -/
theorem State.mem_returned_resume {i : ℕ} {c : C} {p : Program K V α} {r : Return K V C α}
    (h : r ∈ (s.resume i c p).returned) : r ∈ s.returned ∨ r.table = s.table := by
  unfold State.resume at h
  cases hp : p.result? with
  | none => exact .inl (by simpa [hp] using h)
  | some a =>
      rw [hp] at h
      rcases List.mem_cons.mp h with rfl | h
      · exact .inr rfl
      · exact .inl h

/-- What every commit establishes, given the commits before it, holds of the
table, and of every table on which a call returned. -/
theorem Reachable.traced {t : Table K V} (h : Reachable S t s) (hinv : Γ.Inv t)
    {Q : C → Post K V α} (hstart : ∀ c u, Γ.Inv u →
      (S.body c).Safe S.faults Γ.toInterference (Γ.Move c) (Q c) [] u)
    {P : List (Commit K V C) → Table K V → Prop} {R : C → Table K V → Prop}
    (hinit : P [] t)
    (hcommit : ∀ e H, Γ.Inv e.before → Γ.Move e.call e.before e.after → R e.call e.before →
      P H e.before → P (e :: H) e.after)
    (hdrift : ∀ H u u', Γ.Inv u → P H u → S.drift u u' → P H u')
    (hcond : ∀ e ∈ s.history, R e.call e.before) :
    P s.history s.table ∧ ∀ r ∈ s.returned, ∃ H ⊆ s.history, P H r.table := by
  have hsafe : ∀ {m : State K V C α}, Reachable S t m → Sound Γ (fun _ => Q) m :=
    fun hm => hm.sound hinv hstart
  induction h with
  | refl => exact ⟨hinit, by simp [State.initial]⟩
  | @tail m m' hrun hstep ih =>
      obtain ⟨hP, hreturned⟩ := ih fun e he => hcond e (hstep.history_subset he)
      have hm := hsafe hrun
      have hsub := hstep.history_subset
      -- Whoever returns now returns on the table of `m'`.
      have hnext : ∀ {x : State K V C α} {i : ℕ} {c : C} {p : Program K V α},
          x.returned = m.returned → m.history ⊆ x.history → P x.history x.table →
          ∀ r ∈ (x.resume i c p).returned, ∃ H ⊆ x.history, P H r.table := by
        intro x i c p hret hle hx r hr
        rcases State.mem_returned_resume hr with hr | hr
        · obtain ⟨H, hH, hPH⟩ := hreturned r (hret ▸ hr)
          exact ⟨H, fun _ he => hle (hH he), hPH⟩
        · exact ⟨x.history, fun _ he => he, hr ▸ hx⟩
      cases hstep with
      | committed i c ops next hi ha =>
          obtain ⟨hmove, -⟩ := ((hm.running i c _ hi).1 _ (Γ.refl _) hm.inv).2 ha
          have hPc : P (m.commit i c ops).history (m.commit i c ops).table :=
            hcommit ⟨i, c, m.clock, m.table, m.table.apply ops⟩ _ hm.inv hmove
              (hcond _ (List.mem_cons_self ..)) hP
          exact ⟨hPc, hnext rfl hsub hPc⟩
      | responseLost i c ops next hi ha hf =>
          obtain ⟨hmove, -⟩ := ((hm.running i c _ hi).1 _ (Γ.refl _) hm.inv).2 ha
          have hPc : P (m.commit i c ops).history (m.commit i c ops).table :=
            hcommit ⟨i, c, m.clock, m.table, m.table.apply ops⟩ _ hm.inv hmove
              (hcond _ (List.mem_cons_self ..)) hP
          exact ⟨hPc, hnext rfl hsub hPc⟩
      | start c hc => exact ⟨hP, hnext (x := m.open_) rfl hsub hP⟩
      | drift u hu => exact ⟨hdrift _ _ _ hm.inv hP hu, hreturned⟩
      | tick n hn => exact ⟨hP, hreturned⟩
      | read i c k next hi => exact ⟨hP, hnext rfl hsub hP⟩
      | readRaises i c k next hi hf => exact ⟨hP, hnext rfl hsub hP⟩
      | query i c select next rows hi ha => exact ⟨hP, hnext rfl hsub hP⟩
      | queryRaises i c select next hi hf => exact ⟨hP, hnext rfl hsub hP⟩
      | refused i c ops next hi hf => exact ⟨hP, hnext rfl hsub hP⟩

end RowStore
