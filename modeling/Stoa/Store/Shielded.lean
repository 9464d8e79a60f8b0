import Stoa.Store.Auxiliary

/-! # Calls that the others keep out of the way of

The rely of a contract is what every call respects at any time. A condition on the
run can promise a call more than that from its first access on, and the call is
then safe under the stronger rely. -/

namespace RowStore

variable {K : Type} {V : K → Type} {C α : Type}

namespace Program

/-- `q` is what is left of `p` after its next access. -/
inductive Next : Program K V α → Program K V α → Prop where
  | read (k) (next) (row) : Next (next row) (.read k next)
  | query (select) (next) (rows) : Next (next rows) (.query select next)
  | transact (ops) (next) (done) : Next (next done) (.transact ops next)

theorem next_wf : WellFounded (Next : Program K V α → Program K V α → Prop) := by
  refine ⟨fun p => ?_⟩
  induction p with
  | ret a =>
      refine ⟨_, fun q hq => ?_⟩
      cases hq
  | read k next ih =>
      refine ⟨_, fun q hq => ?_⟩
      cases hq with
      | read _ _ row => exact ih row
  | query select next ih =>
      refine ⟨_, fun q hq => ?_⟩
      cases hq with
      | query _ _ rows => exact ih rows
  | transact ops next ih =>
      refine ⟨_, fun q hq => ?_⟩
      cases hq with
      | transact _ _ done => exact ih done

/-- A program is not what is left of it later. -/
theorem later_ne {p q : Program K V α} (h : Relation.TransGen Next q p) : q ≠ p := by
  rintro rfl
  induction q using next_wf.transGen.induction with
  | _ q ih => exact ih q h h

end Program

/-- A property of the table that the interference and the program's own commits keep
holds at every commit of it, and when it returns. -/
theorem Program.Safe.along [DecidableEq K] {F : Faults} {I J : Interference K V} {G H : Table K V → Table K V → Prop}
    {Q : Post K V α} {U : Table K V → Prop} {p : Program K V α} {own : List (Table K V × Table K V)}
    {t : Table K V} (h : p.Safe F I G Q own t) (ht : U t) (hinv : ∀ t, J.Inv t → I.Inv t)
    (hrely : ∀ t u, J.Rely t u → I.Rely t u) (hU : ∀ t u, U t → J.Rely t u → U u)
    (hG : ∀ t u, J.Inv t → U t → G t u → H t u ∧ U u) :
    p.Safe F J H (fun a own t => Q a own t ∧ U t) own t := by
  induction p generalizing own t with
  | ret a => exact ⟨h, ht⟩
  | read k next ih =>
      intro t' hr hi
      have hsafe := h t' (hrely _ _ hr) (hinv _ hi)
      exact ⟨ih _ hsafe.1 (hU _ _ ht hr), fun hf => ih _ (hsafe.2 hf) (hU _ _ ht hr)⟩
  | query select next ih =>
      intro t' hr hi
      have hsafe := h t' (hrely _ _ hr) (hinv _ hi)
      exact ⟨fun rows ha => ih _ (hsafe.1 rows ha) (hU _ _ ht hr), fun hf => ih _ (hsafe.2 hf) (hU _ _ ht hr)⟩
  | transact ops next ih =>
      intro t' hr hi
      obtain ⟨hrefused, hadmits⟩ := h t' (hrely _ _ hr) (hinv _ hi)
      refine ⟨fun hn => ih _ (hrefused hn) (hU _ _ ht hr), fun ha => ?_⟩
      obtain ⟨hg, hok, hlost⟩ := hadmits ha
      obtain ⟨hg', hu⟩ := hG _ _ hi (hU _ _ ht hr) hg
      exact ⟨hg', ih _ hok hu, fun hf => ih _ (hlost hf) hu⟩

variable [DecidableEq K] {S : Service K V C α} {I : C → Interference K V} {Q : C → Post K V α}
  {s s' : State K V C α}

/-- A running call is still before its first access, or safe under its own rely. -/
structure Shielded (S : Service K V C α) (I : C → Interference K V) (Q : C → Post K V α)
    (s : State K V C α) : Prop where
  running : ∀ i c p, s.running i = some (c, p) → i < s.next ∧
    (p = S.body c ∧ s.commits i = [] ∨ Relation.TransGen Program.Next p (S.body c) ∧
      p.result? = none ∧ p.Safe S.faults (I c) (fun _ _ => True) (Q c) (s.commits i) s.table)
  returned : ∀ r ∈ s.returned, r.id < s.next ∧ s.running r.id = none ∧
    Q r.call r.result (s.commits r.id) r.table
  committed : ∀ e ∈ s.history, e.id < s.next

namespace Shielded

/-- A call that goes on, where its own commits and the table are those of `s`. -/
theorem resume {i : ℕ} {c : C} {p : Program K V α} (hi : i < s.next)
    (hrunning : ∀ j d q, j ≠ i → s.running j = some (d, q) → j < s.next ∧
      (q = S.body d ∧ s.commits j = [] ∨ Relation.TransGen Program.Next q (S.body d) ∧
        q.result? = none ∧ q.Safe S.faults (I d) (fun _ _ => True) (Q d) (s.commits j) s.table))
    (hreturned : ∀ r ∈ s.returned, r.id ≠ i ∧ r.id < s.next ∧ s.running r.id = none ∧
      Q r.call r.result (s.commits r.id) r.table)
    (hcommitted : ∀ e ∈ s.history, e.id < s.next)
    (hbody : p = S.body c ∧ s.commits i = [] ∨ Relation.TransGen Program.Next p (S.body c))
    (hp : p.Safe S.faults (I c) (fun _ _ => True) (Q c) (s.commits i) s.table) :
    Shielded S I Q (s.resume i c p) := by
  cases hres : p.result? with
  | none =>
      have hrun : (s.resume i c p).running = Function.update s.running i (some (c, p)) := by
        simp [State.resume, hres]
      have hret : (s.resume i c p).returned = s.returned := by simp [State.resume, hres]
      refine ⟨fun j d q hj => ?_, fun r hr => ?_, hcommitted⟩
      · rw [hrun] at hj
        by_cases hji : j = i
        · subst hji
          simp only [Function.update_self, Option.some_inj, Prod.mk.injEq] at hj
          obtain ⟨rfl, rfl⟩ := hj
          exact ⟨hi, hbody.imp_right fun h => ⟨h, hres, hp⟩⟩
        · rw [Function.update_of_ne hji] at hj
          exact hrunning j d q hji hj
      · rw [hret] at hr
        obtain ⟨hne, hlt, hnone, hq⟩ := hreturned r hr
        exact ⟨hlt, by rw [hrun, Function.update_of_ne hne]; exact hnone, hq⟩
  | some a =>
      have hrun : (s.resume i c p).running = Function.update s.running i none := by
        simp [State.resume, hres]
      have hret : (s.resume i c p).returned = ⟨i, c, a, s.table⟩ :: s.returned := by
        simp [State.resume, hres]
      refine ⟨fun j d q hj => ?_, fun r hr => ?_, hcommitted⟩
      · rw [hrun] at hj
        by_cases hji : j = i
        · subst hji
          simp at hj
        · rw [Function.update_of_ne hji] at hj
          exact hrunning j d q hji hj
      · rw [hret] at hr
        rcases List.mem_cons.mp hr with rfl | hr
        · rw [Program.eq_ret_of_result? hres] at hp
          exact ⟨hi, by rw [hrun, Function.update_self], hp⟩
        · obtain ⟨hne, hlt, hnone, hq⟩ := hreturned r hr
          exact ⟨hlt, by rw [hrun, Function.update_of_ne hne]; exact hnone, hq⟩

/-- What the running call `i` may go on from. -/
theorem next {i : ℕ} {c : C} {p : Program K V α} (h : Shielded S I Q s) (hinv : (I c).Inv s.table)
    (hstart : ∀ u, (I c).Inv u → (S.body c).Safe S.faults (I c) (fun _ _ => True) (Q c) [] u)
    (hi : s.running i = some (c, p)) : i < s.next ∧
      p.Safe S.faults (I c) (fun _ _ => True) (Q c) (s.commits i) s.table ∧
      ∀ q, Program.Next q p → Relation.TransGen Program.Next q (S.body c) := by
  obtain ⟨hlt, ⟨rfl, hcommits⟩ | ⟨hlater, -, hsafe⟩⟩ := h.running i c p hi
  · exact ⟨hlt, hcommits ▸ hstart _ hinv, fun q hq => .single hq⟩
  · exact ⟨hlt, hsafe, fun q hq => .head hq hlater⟩

/-- A step of another call, or of no call. -/
theorem others {v : State K V C α} {i : ℕ} {c : C} {p : Program K V α} (h : Shielded S I Q s)
    (hi : s.running i = some (c, p))
    (hcommits : v.commits i = s.commits i) (hnext : s.next ≤ v.next)
    (hrely : p ≠ S.body c → (I c).Rely s.table v.table) : i < v.next ∧
      (p = S.body c ∧ v.commits i = [] ∨ Relation.TransGen Program.Next p (S.body c) ∧
        p.result? = none ∧ p.Safe S.faults (I c) (fun _ _ => True) (Q c) (v.commits i) v.table) := by
  obtain ⟨hlt, ⟨rfl, hnone⟩ | ⟨hlater, hres, hsafe⟩⟩ := h.running i c p hi
  · exact ⟨hlt.trans_le hnext, .inl ⟨rfl, hcommits.trans hnone⟩⟩
  · refine ⟨hlt.trans_le hnext, .inr ⟨hlater, hres, ?_⟩⟩
    rw [hcommits]
    refine hsafe.rely ?_ (hrely (Program.later_ne hlater))
    rintro a rfl
    simp [Program.result?] at hres

theorem commits_commit {i j : ℕ} {c : C} {ops : List (Write K V)} (h : j ≠ i) :
    (s.commit i c ops).commits j = s.commits j := by
  simp [State.commits, State.commit, Ne.symm h]

theorem commits_commit_self {i : ℕ} {c : C} {ops : List (Write K V)} :
    (s.commit i c ops).commits i = (s.table, s.table.apply ops) :: s.commits i := by
  simp [State.commits, State.commit]

theorem step (h : Shielded S I Q s) (hstep : Step S s s') (hinv : ∀ c, (I c).Inv s.table)
    (hstart : ∀ c u, (I c).Inv u → (S.body c).Safe S.faults (I c) (fun _ _ => True) (Q c) [] u)
    (hrely : ∀ i c p, s.running i = some (c, p) → s'.running i = some (c, p) → p ≠ S.body c →
      (I c).Rely s.table s'.table) : Shielded S I Q s' := by
  have hne : ∀ {i c p}, s.running i = some (c, p) → ∀ r ∈ s.returned, r.id ≠ i := fun {i c p} hi r hr => by
    rintro rfl
    cases (h.returned r hr).2.1.symm.trans hi
  -- A call that reads, or whose transaction is refused.
  have hquiet : ∀ {i c p}, s.running i = some (c, p) → ∀ q, Program.Next q p →
      q.Safe S.faults (I c) (fun _ _ => True) (Q c) (s.commits i) s.table →
        Shielded S I Q (s.resume i c q) := fun {i c p} hi q hq hsafe =>
    resume (h.running i c p hi).1 (fun j d q _ hj => h.running j d q hj)
      (fun r hr => ⟨hne hi r hr, h.returned r hr⟩) h.committed
      (.inr ((h.next (hinv c) (hstart c) hi).2.2 q hq)) hsafe
  -- A call that commits: the others rely on it.
  have hcommits : ∀ {i c p ops q}, s.running i = some (c, p) → Program.Next q p →
      (∀ j d r, s.running j = some (d, r) → ((s.commit i c ops).resume i c q).running j = some (d, r) →
        r ≠ S.body d → (I d).Rely s.table (s.table.apply ops)) →
      q.Safe S.faults (I c) (fun _ _ => True) (Q c) ((s.table, s.table.apply ops) :: s.commits i)
        (s.table.apply ops) → Shielded S I Q ((s.commit i c ops).resume i c q) :=
    fun {i c p ops q} hi hq hother hsafe => by
      refine resume (s := s.commit i c ops) (h.running i c p hi).1 (fun j d r hji hj => ?_) (fun r hr => ?_)
        (fun e he => ?_) (.inr ((h.next (hinv c) (hstart c) hi).2.2 q hq)) (by rwa [commits_commit_self])
      · have hsame : ((s.commit i c ops).resume i c q).running j = some (d, r) := by
          rw [← hj]
          unfold State.resume
          cases q.result? <;> simp [Function.update_of_ne hji]
        exact h.others (v := s.commit i c ops) hj (commits_commit hji) le_rfl (hother j d r hj hsame)
      · obtain ⟨hlt, hnone, hq⟩ := h.returned r hr
        exact ⟨hne hi r hr, hlt, hnone, by rwa [commits_commit (hne hi r hr)]⟩
      · rcases List.mem_cons.mp he with rfl | he
        · exact (h.running i c p hi).1
        · exact h.committed e he
  cases hstep with
  | start c hc =>
      have hnone : s.commits s.next = [] := by
        rw [State.commits, List.map_eq_nil_iff, List.filter_eq_nil_iff]
        intro e he
        simpa using (h.committed e he).ne
      refine resume (s := s.open_) (Nat.lt_succ_self _)
        (fun j d q _ hj => ⟨Nat.lt_succ_of_lt (h.running j d q hj).1, (h.running j d q hj).2⟩)
        (fun r hr => ?_) (fun e he => Nat.lt_succ_of_lt (h.committed e he)) (.inl ⟨rfl, hnone⟩) ?_
      · obtain ⟨hlt, hrest⟩ := h.returned r hr
        exact ⟨hlt.ne, Nat.lt_succ_of_lt hlt, hrest⟩
      · change (S.body c).Safe S.faults (I c) (fun _ _ => True) (Q c) (s.commits s.next) s.table
        rw [hnone]
        exact hstart c _ (hinv c)
  | read i c k next hi =>
      obtain ⟨-, hsafe, -⟩ := h.next (hinv c) (hstart c) hi
      exact hquiet hi _ (.read ..) (hsafe _ ((I c).refl _) (hinv c)).1
  | readRaises i c k next hi hf =>
      obtain ⟨-, hsafe, -⟩ := h.next (hinv c) (hstart c) hi
      exact hquiet hi _ (.read ..) ((hsafe _ ((I c).refl _) (hinv c)).2 hf)
  | query i c select next rows hi ha =>
      obtain ⟨-, hsafe, -⟩ := h.next (hinv c) (hstart c) hi
      exact hquiet hi _ (.query ..) ((hsafe _ ((I c).refl _) (hinv c)).1 rows ha)
  | queryRaises i c select next hi hf =>
      obtain ⟨-, hsafe, -⟩ := h.next (hinv c) (hstart c) hi
      exact hquiet hi _ (.query ..) ((hsafe _ ((I c).refl _) (hinv c)).2 hf)
  | refused i c ops next hi hf =>
      obtain ⟨-, hsafe, -⟩ := h.next (hinv c) (hstart c) hi
      exact hquiet hi _ (.transact ..) ((hsafe _ ((I c).refl _) (hinv c)).1 hf)
  | committed i c ops next hi ha =>
      obtain ⟨-, hsafe, -⟩ := h.next (hinv c) (hstart c) hi
      exact hcommits hi (.transact ..) hrely ((hsafe _ ((I c).refl _) (hinv c)).2 ha).2.1
  | responseLost i c ops next hi ha hf =>
      obtain ⟨-, hsafe, -⟩ := h.next (hinv c) (hstart c) hi
      exact hcommits hi (.transact ..) hrely (((hsafe _ ((I c).refl _) (hinv c)).2 ha).2.2 hf)
  | drift t ht =>
      exact ⟨fun j d q hj => h.others (v := { s with table := t }) hj rfl le_rfl (hrely j d q hj hj),
        h.returned, h.committed⟩
  | tick n hn =>
      exact ⟨fun j d q hj => h.others (v := { s with clock := n }) hj rfl le_rfl (hrely j d q hj hj),
        h.returned, h.committed⟩

end Shielded

/-- What the calls of a run return, where each step keeps what the calls under way,
other than the one that makes it, rely on. -/
theorem StepsWhere.shielded {P : State K V C α → State K V C α → Prop} {t : Table K V}
    (h : StepsWhere S P (.initial t) s) (hinv : ∀ m, Steps S (.initial t) m → ∀ c, (I c).Inv m.table)
    (hstart : ∀ c u, (I c).Inv u → (S.body c).Safe S.faults (I c) (fun _ _ => True) (Q c) [] u)
    (hrely : ∀ m m', Steps S (.initial t) m → Step S m m' → P m m' → ∀ i c p, m.running i = some (c, p) →
      m'.running i = some (c, p) → p ≠ S.body c → (I c).Rely m.table m'.table) :
    ∀ r ∈ s.returned, Q r.call r.result (s.commits r.id) r.table := by
  have hshielded : Shielded S I Q s := by
    induction h with
    | refl => exact ⟨by simp [State.initial], by simp [State.initial], by simp [State.initial]⟩
    | tail hrun hstep ih =>
        have hsteps := StepsWhere.steps hrun
        exact ih.step hstep.1 (hinv _ hsteps) hstart (hrely _ _ hsteps hstep.1 hstep.2)
  exact fun r hr => (hshielded.returned r hr).2.2

/-- Every running call moves: only the call that makes the step is running. -/
def Moves (s s' : State K V C α) : Prop :=
  ∀ i c p, s.running i = some (c, p) → s'.running i ≠ some (c, p)

omit [DecidableEq K] in
theorem State.moves_resume {i : ℕ} {c : C} {p q : Program K V α} (hidle : ∀ j, j ≠ i → s.running j = none)
    (hp : p.result? = none) (hq : Program.Next q p) :
    Moves (s.resume i c p) (s'.resume i c q) := by
  intro j d r hj hj'
  by_cases hji : j = i
  · subst hji
    simp only [State.resume, hp, Function.update_self] at hj
    cases hj
    cases hres : q.result? with
    | some a => simp [State.resume, hres] at hj'
    | none =>
        simp only [State.resume, hres, Function.update_self, Option.some_inj, Prod.mk.injEq] at hj'
        exact Program.later_ne (.single hq) hj'.2
  · simp [State.resume, hp, hji, hidle j hji] at hj

/-- A call that runs alone is the only one that runs. -/
theorem StepsWhere.drive_moves {x : State K V C α} {i : ℕ} {c : C} {p : Program K V α}
    (h : StepsWhere S Moves x (s.resume i c p)) (hidle : ∀ j, j ≠ i → s.running j = none) :
    StepsWhere S Moves x (State.drive i c p [] s) := by
  induction p generalizing s with
  | ret a => exact h
  | read k next ih =>
      refine ih _ (h.tail ⟨?_, State.moves_resume hidle rfl (.read ..)⟩) hidle
      have hstep := Step.read (S := S) _ i c k next (State.running_resume (s := s) rfl)
      rwa [State.resume_resume rfl] at hstep
  | query select next ih =>
      refine ih _ (h.tail ⟨?_, State.moves_resume hidle rfl (.query ..)⟩) hidle
      have hstep := Step.query (S := S) _ i c select next (s.table.rows select)
        (State.running_resume (s := s) rfl) (List.Perm.refl _)
      rwa [State.resume_resume rfl] at hstep
  | transact ops next ih =>
      have hrun := State.running_resume (i := i) (c := c) (s := s) (p := .transact ops next) rfl
      unfold State.drive
      split
      · rename_i ha
        refine ih true (s := s.commit i c ops) (h.tail ⟨?_, State.moves_resume hidle rfl (.transact ..)⟩) hidle
        have hstep := Step.committed (S := S) _ i c ops next hrun ha
        rwa [State.commit_resume_resume rfl] at hstep
      · rename_i ha
        refine ih _ (h.tail ⟨?_, State.moves_resume hidle rfl (.transact ..)⟩) hidle
        have hstep := Step.refused (S := S) _ i c ops next hrun (.inr ha)
        rwa [State.resume_resume rfl] at hstep

theorem StepsWhere.solo_moves {x : State K V C α} {c : C} (h : StepsWhere S Moves x s)
    (hidle : ∀ j, s.running j = none) (hc : S.mayStart s.clock c) :
    StepsWhere S Moves x (s.solo S c []) := by
  refine StepsWhere.drive_moves (h.tail ⟨.start s c hc, fun j d p hj => ?_⟩) fun j _ => hidle j
  rw [hidle j] at hj
  cases hj

end RowStore
