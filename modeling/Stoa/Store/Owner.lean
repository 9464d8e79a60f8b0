import Stoa.Store.Runs

/-! # One call among others

What one call guarantees may rest on more than what the calls guarantee to each other: on
what the commits of all others have done in this run. -/

namespace RowStore

variable {K : Type} {V : K → Type} {C α : Type} [DecidableEq K] {S : Service K V C α} {J : Interference K V}
  {H : C → Table K V → Table K V → Prop} {o : ℕ} {t : Table K V} {s s' : State K V C α}

/-- Call `o` is safe under `J`, from the table `t` on. -/
structure Owned (S : Service K V C α) (J : Interference K V) (H : C → Table K V → Table K V → Prop) (o : ℕ)
    (t : Table K V) (s : State K V C α) : Prop where
  before : s.next ≤ o → J.Rely t s.table
  running : ∀ c p, s.running o = some (c, p) → p.result? = none ∧
    p.Safe S.faults J (H c) (fun _ _ _ => True) (s.commits o) s.table
  history : ∀ e ∈ s.history, e.id = o → H e.call e.before e.after

namespace Owned

omit [DecidableEq K] in
theorem running_resume {i : ℕ} {c d : C} {p q : Program K V α}
    (h : (s.resume i c p).running o = some (d, q)) :
    (i = o ∧ d = c ∧ q = p ∧ p.result? = none) ∨ i ≠ o ∧ s.running o = some (d, q) := by
  unfold State.resume at h
  by_cases hi : i = o
  · subst hi
    simp only [Function.update_self] at h
    cases hres : p.result? with
    | some a => simp [hres] at h
    | none =>
        rw [hres] at h
        obtain ⟨rfl, rfl⟩ := Prod.mk.inj (Option.some.inj h)
        exact .inl ⟨rfl, rfl, rfl, rfl⟩
  · exact .inr ⟨hi, by simpa [Function.update_of_ne (Ne.symm hi)] using h⟩

/-- A call goes on, and the table stays. -/
theorem resume {i : ℕ} {c : C} {p : Program K V α} (h : Owned S J H o t s)
    (hp : i = o → p.Safe S.faults J (H c) (fun _ _ _ => True) (s.commits o) s.table) :
    Owned S J H o t (s.resume i c p) where
  before := h.before
  running d q hd := by
    rcases running_resume hd with ⟨rfl, rfl, rfl, hres⟩ | ⟨-, hd⟩
    · exact ⟨hres, hp rfl⟩
    · exact h.running d q hd
  history := h.history

/-- Another call commits, or other code writes. -/
theorem others {v : State K V C α} (h : Owned S J H o t s) (hnext : s.next ≤ v.next)
    (hrely : J.Rely s.table v.table)
    (hrunning : v.running o = s.running o) (hcommits : v.commits o = s.commits o)
    (hhistory : ∀ e ∈ v.history, e ∈ s.history ∨ e.id ≠ o) : Owned S J H o t v where
  before hle := J.trans (h.before (hnext.trans hle)) hrely
  running c p hi := by
    rw [hrunning] at hi
    obtain ⟨hres, hsafe⟩ := h.running c p hi
    refine ⟨hres, hcommits ▸ hsafe.rely ?_ hrely⟩
    rintro a rfl
    simp [Program.result?] at hres
  history e he hid := (hhistory e he).elim (fun he => h.history e he hid) fun hne => absurd hid hne

theorem step (h : Owned S J H o t s) (hs : s.Booked) (hstep : Step S s s') (hinv : J.Inv s.table)
    (hstart : ∀ c u, J.Inv u → J.Rely t u → (S.body c).Safe S.faults J (H c) (fun _ _ _ => True) [] u)
    (hothers : ∀ e ∈ s'.history, e.id ≠ o → J.Rely e.before e.after)
    (hdrift : ∀ u u', S.drift u u' → J.Rely u u') : Owned S J H o t s' := by
  have hlt : ∀ {i c p}, s.running i = some (c, p) → i < s.next := fun {i c p} hi => by
    by_contra hle
    cases (hs.fresh i (not_lt.mp hle)).symm.trans hi
  -- A commit of call `i`, after which it goes on as `q`.
  have hcommit : ∀ {i c p ops q}, s.running i = some (c, p) →
      (∀ e ∈ (s.commit i c ops).history, e.id ≠ o → J.Rely e.before e.after) →
      (i = o → H c s.table (s.table.apply ops) ∧
        q.Safe S.faults J (H c) (fun _ _ _ => True) ((s.table, s.table.apply ops) :: s.commits o) (s.table.apply ops)) →
      Owned S J H o t ((s.commit i c ops).resume i c q) := fun {i c p ops q} hi hall hown => by
    by_cases hio : i = o
    · subst hio
      obtain ⟨hmove, hsafe⟩ := hown rfl
      refine ⟨fun hle => absurd (hlt hi) (not_lt.mpr hle), fun d r hd => ?_, fun e he hid => ?_⟩
      · rcases running_resume hd with ⟨-, rfl, rfl, hres⟩ | ⟨hne, -⟩
        · refine ⟨hres, ?_⟩
          simpa [State.commits, State.commit, State.resume] using hsafe
        · exact absurd rfl hne
      · rcases List.mem_cons.mp he with rfl | he
        · exact hmove
        · exact h.history e he hid
    · refine (h.others (v := s.commit i c ops) le_rfl (hall _ (List.mem_cons_self ..) hio) rfl ?_ fun e he => ?_).resume
        fun heq => absurd heq hio
      · simp [State.commits, State.commit, hio]
      · rcases List.mem_cons.mp he with rfl | he
        · exact .inr hio
        · exact .inl he
  -- A call that reads, or whose transaction is refused.
  have hquiet : ∀ {i c p}, s.running i = some (c, p) → ∀ q,
      (i = o → p.Safe S.faults J (H c) (fun _ _ _ => True) (s.commits o) s.table →
        q.Safe S.faults J (H c) (fun _ _ _ => True) (s.commits o) s.table) → Owned S J H o t (s.resume i c q) :=
    fun {i c p} hi q hq => h.resume fun hio => by
      subst hio
      exact hq rfl (h.running c p hi).2
  cases hstep with
  | start c hc =>
      have hopen : Owned S J H o t s.open_ :=
        h.others (v := s.open_) (Nat.le_succ _) (J.refl _) rfl rfl fun e he => .inl he
      refine hopen.resume fun hio => ?_
      have hnone : s.open_.commits o = [] := by
        rw [State.commits, List.map_eq_nil_iff, List.filter_eq_nil_iff]
        intro e he
        simp only [decide_eq_true_eq]
        rintro rfl
        rcases hs.committed e he with ⟨p, hp⟩ | ⟨r, hr, hid, -⟩
        · exact absurd (hlt hp) (hio ▸ lt_irrefl _)
        · exact absurd (hs.ended r hr).2 (hid ▸ hio ▸ lt_irrefl _)
      rw [hnone]
      exact hstart c _ hinv (h.before hio.le)
  | read i c k next hi => exact hquiet hi _ fun _ hsafe => (hsafe _ (J.refl _) hinv).1
  | readRaises i c k next hi hf => exact hquiet hi _ fun _ hsafe => (hsafe _ (J.refl _) hinv).2 hf
  | query i c select next rows hi ha => exact hquiet hi _ fun _ hsafe => (hsafe _ (J.refl _) hinv).1 rows ha
  | queryRaises i c select next hi hf => exact hquiet hi _ fun _ hsafe => (hsafe _ (J.refl _) hinv).2 hf
  | refused i c ops next hi hf => exact hquiet hi _ fun _ hsafe => (hsafe _ (J.refl _) hinv).1 hf
  | committed i c ops next hi ha =>
      refine hcommit hi hothers fun hio => ?_
      subst hio
      obtain ⟨hmove, hok, -⟩ := ((h.running c _ hi).2 _ (J.refl _) hinv).2 ha
      exact ⟨hmove, hok⟩
  | responseLost i c ops next hi ha hf =>
      refine hcommit hi hothers fun hio => ?_
      subst hio
      obtain ⟨hmove, -, hlost⟩ := ((h.running c _ hi).2 _ (J.refl _) hinv).2 ha
      exact ⟨hmove, hlost hf⟩
  | drift u hu => exact h.others (v := { s with table := u }) le_rfl (hdrift _ _ hu) rfl rfl fun e he => .inl he
  | tick n hn => exact h.others (v := { s with clock := n }) le_rfl (J.refl _) rfl rfl fun e he => .inl he

end Owned

/-- What the commits of call `o` do, where those of all other calls keep what it relies on. -/
theorem Reachable.owned (h : Reachable S t s) (hinv : ∀ m, Reachable S t m → J.Inv m.table)
    (hstart : ∀ c u, J.Inv u → J.Rely t u → (S.body c).Safe S.faults J (H c) (fun _ _ _ => True) [] u)
    (hothers : ∀ e ∈ s.history, e.id ≠ o → J.Rely e.before e.after)
    (hdrift : ∀ u u', S.drift u u' → J.Rely u u') :
    ∀ e ∈ s.history, e.id = o → H e.call e.before e.after := by
  suffices howned : Owned S J H o t s from howned.history
  induction h with
  | refl => exact ⟨fun _ => J.refl _, by simp [State.initial], by simp [State.initial]⟩
  | tail hrun hstep ih =>
      refine (ih fun e he => hothers e (hstep.history_subset he)).step (Reachable.booked hrun) hstep (hinv _ hrun)
        hstart hothers hdrift

end RowStore
