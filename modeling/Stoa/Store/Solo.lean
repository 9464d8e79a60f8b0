import Stoa.Store.Handler
import Stoa.Store.Runs

/-! # Calls that run alone

Running one call after another is one of the interleavings. It can be computed,
so concrete runs are evaluated here rather than derived step by step. -/

namespace RowStore

variable {K : Type} {V : K → Type} {C α : Type} [DecidableEq K]

/-- What becomes of a transaction whose conditions hold. -/
inductive Fate where
  | answered
  | lost
  | refused

/-- What a call answers, and the table that it leaves, when nobody interferes and
nothing fails. -/
def Program.alone : Program K V α → Table K V → α × Table K V
  | .ret a, t => (a, t)
  | .read k next, t => (next (some (t.row k))).alone t
  | .query select next, t => (next (some (t.rows select))).alone t
  | .transact ops next, t =>
      if t.Admits ops then (next true).alone (t.apply ops) else (next false).alone t

theorem Program.alone_bind {β : Type} (p : Program K V α) (f : α → Program K V β) (t : Table K V) :
    (p.bind f).alone t = (f (p.alone t).1).alone (p.alone t).2 := by
  induction p generalizing t with
  | ret a => rfl
  | read k next ih => exact ih _ t
  | query select next ih => exact ih _ t
  | transact ops next ih =>
      rw [bind, alone, alone]
      split
      · exact ih _ _
      · exact ih _ _

/-- A call that only reads leaves the table. -/
theorem Program.ReadOnly.alone {p : Program K V α} (h : p.ReadOnly) (t : Table K V) : (p.alone t).2 = t := by
  induction p with
  | ret a => rfl
  | read k next ih => exact ih _ (h _)
  | query select next ih => exact ih _ (h _)
  | transact ops next ih => exact h.elim

namespace Handler

variable {ε β : Type} {e : ε} {t u : Table K V}

/-- Where a call answers, so does its first part. -/
theorem alone_bind_eq_ok {y : Handler K V ε α} {f : α → Handler K V ε β} {b : β}
    (h : (y >>= f).run.alone t = (.ok b, u)) :
    ∃ a v, y.run.alone t = (.ok a, v) ∧ (f a).run.alone v = (.ok b, u) := by
  have hbind := (Program.alone_bind y.run _ t).symm.trans h
  cases hy : y.run.alone t with
  | mk answer v =>
      rw [hy] at hbind
      cases answer with
      | ok a => exact ⟨a, v, rfl, hbind⟩
      | error e => cases hbind

theorem alone_bind_ok {y : Handler K V ε α} {f : α → Handler K V ε β} {a : α}
    (h : y.run.alone t = (.ok a, u)) : (y >>= f).run.alone t = (f a).run.alone u := by
  refine (Program.alone_bind y.run _ t).trans ?_
  rw [h]
  rfl

/-- An error that the rest never raises is raised by the first part. -/
theorem alone_bind_eq_error_iff {y : Handler K V ε α} {f : α → Handler K V ε β}
    (hf : ∀ a u, ((f a).run.alone u).1 ≠ .error e) :
    ((y >>= f).run.alone t).1 = .error e ↔ (y.run.alone t).1 = .error e := by
  have hbind := congrArg Prod.fst (Program.alone_bind y.run (ExceptT.bindCont f) t)
  refine (Eq.congr_left hbind).trans ?_
  cases hy : y.run.alone t with
  | mk answer u =>
      cases answer with
      | ok a => exact iff_of_false (hf a u) nofun
      | error e' => exact ⟨fun h => congrArg _ (Except.error.inj h), fun h => congrArg _ (Except.error.inj h)⟩

theorem alone_get_bind {k : K} {f : Option (V k) → Handler K V ε β} :
    (get e k >>= f).run.alone t = (f (t.row k)).run.alone t := rfl

theorem alone_list_bind {select : K → Bool} {f : List ((k : K) × V k) → Handler K V ε β} :
    (list e select >>= f).run.alone t = (f (t.rows select)).run.alone t := rfl

theorem alone_of_bind {a : α} {f : α → Handler K V ε β} :
    (of (.ok a) >>= f).run.alone t = (f a).run.alone t := rfl

theorem alone_submit_bind {ops : List (Write K V)} {f : Bool → Handler K V ε β} :
    (submit ops >>= f).run.alone t =
      if t.Admits ops then (f true).run.alone (t.apply ops) else (f false).run.alone t := rfl

theorem alone_tryCatch_ok {x : Handler K V ε α} {f : ε → Handler K V ε α} {a : α}
    (h : x.run.alone t = (.ok a, u)) : (tryCatch x f : Handler K V ε α).run.alone t = (.ok a, u) := by
  refine (Program.alone_bind x.run _ t).trans ?_
  rw [h]
  rfl

end Handler

namespace State

/-- Call `i` runs `p` to its end. The list gives the fates of its transactions;
those beyond it are answered. -/
def drive (i : ℕ) (c : C) : Program K V α → List Fate → State K V C α → State K V C α
  | .ret a, _, s => s.resume i c (.ret a)
  | .read k next, fates, s => drive i c (next (some (s.table.row k))) fates s
  | .query select next, fates, s => drive i c (next (some (s.table.rows select))) fates s
  | .transact ops next, fates, s =>
      if s.table.Admits ops then
        match fates with
        | .refused :: rest => drive i c (next false) rest s
        | .lost :: rest => drive i c (next false) rest (s.commit i c ops)
        | .answered :: rest => drive i c (next true) rest (s.commit i c ops)
        | [] => drive i c (next true) [] (s.commit i c ops)
      else drive i c (next false) fates.tail s

/-- Start `c` and run it alone. -/
def solo (S : Service K V C α) (c : C) (fates : List Fate) (s : State K V C α) :
    State K V C α :=
  s.open_.drive s.next c (S.body c) fates

/-- Driving a call whose transactions are all answered runs it alone. -/
theorem drive_alone (i : ℕ) (c : C) (p : Program K V α) (s : State K V C α) :
    (drive i c p [] s).table = (p.alone s.table).2 ∧
      (drive i c p [] s).returned =
        ⟨i, c, (p.alone s.table).1, (p.alone s.table).2⟩ :: s.returned := by
  induction p generalizing s with
  | ret a => exact ⟨rfl, rfl⟩
  | read k next ih => exact ih _ s
  | query select next ih => exact ih _ s
  | transact ops next ih =>
      unfold drive Program.alone
      split
      · exact ih _ (s.commit i c ops)
      · exact ih _ s

/-- The run of a call alone returns what the call answers. -/
theorem solo_returned (S : Service K V C α) (c : C) (s : State K V C α) :
    ⟨s.next, c, ((S.body c).alone s.table).1, ((S.body c).alone s.table).2⟩ ∈
      (s.solo S c []).returned := by
  rw [solo, (drive_alone _ _ _ _).2]
  exact List.mem_cons_self ..

omit [DecidableEq K] in
theorem resume_resume {i : ℕ} {c : C} {p q : Program K V α} {s : State K V C α}
    (hp : p.result? = none) : (s.resume i c p).resume i c q = s.resume i c q := by
  simp [resume, hp]

theorem commit_resume_resume {i : ℕ} {c : C} {p q : Program K V α} {s : State K V C α}
    {ops : List (Write K V)} (hp : p.result? = none) :
    ((s.resume i c p).commit i c ops).resume i c q = (s.commit i c ops).resume i c q := by
  simp [resume, commit, hp]

omit [DecidableEq K] in
theorem running_resume {i : ℕ} {c : C} {p : Program K V α} {s : State K V C α}
    (hp : p.result? = none) : (s.resume i c p).running i = some (c, p) := by
  simp [resume, hp]

/-- Driving a call is a run of the service. -/
theorem drive_steps {S : Service K V C α} (hrefused : S.faults.writeRefused)
    (hlost : S.faults.responseLost) (i : ℕ) (c : C) (p : Program K V α)
    (fates : List Fate) (s x : State K V C α) (h : Steps S x (s.resume i c p)) :
    Steps S x (drive i c p fates s) := by
  induction p generalizing fates s with
  | ret a => exact h
  | read k next ih =>
      apply ih
      have hstep := Step.read (S := S) _ i c k next (running_resume (s := s) rfl)
      rw [resume_resume rfl] at hstep
      exact h.tail hstep
  | query select next ih =>
      apply ih
      have hstep := Step.query (S := S) _ i c select next (s.table.rows select)
        (running_resume (s := s) rfl) (List.Perm.refl _)
      rw [resume_resume rfl] at hstep
      exact h.tail hstep
  | transact ops next ih =>
      have hrun := running_resume (i := i) (c := c) (s := s) (p := .transact ops next) rfl
      have hno (hf : S.faults.writeRefused ∨ ¬ s.table.Admits ops) :
          Steps S x (s.resume i c (next false)) := by
        have hstep := Step.refused (S := S) _ i c ops next hrun hf
        rw [resume_resume rfl] at hstep
        exact h.tail hstep
      unfold drive
      split
      · rename_i ha
        have hok : Steps S x ((s.commit i c ops).resume i c (next true)) := by
          have hstep := Step.committed (S := S) _ i c ops next hrun ha
          rw [commit_resume_resume rfl] at hstep
          exact h.tail hstep
        split
        · exact ih _ _ _ (hno (.inl hrefused))
        · apply ih
          have hstep := Step.responseLost (S := S) _ i c ops next hrun ha hlost
          rw [commit_resume_resume rfl] at hstep
          exact h.tail hstep
        · exact ih _ _ _ hok
        · exact ih _ _ _ hok
      · rename_i ha
        exact ih _ _ _ (hno (.inr ha))

/-- Running a call alone is a run of the service. -/
theorem solo_steps {S : Service K V C α} (hrefused : S.faults.writeRefused)
    (hlost : S.faults.responseLost) {s : State K V C α} {c : C}
    (hc : S.mayStart s.clock c) (fates : List Fate) :
    Steps S s (s.solo S c fates) :=
  drive_steps hrefused hlost _ _ _ _ _ _ (.single (.start s c hc))

/-! ## Calls that take turns -/

/-- Start a call, and leave it at its first access. -/
def launch (S : Service K V C α) (c : C) (s : State K V C α) : State K V C α :=
  s.open_.resume s.next c (S.body c)

/-- Call `i` makes its next accesses, as many as there are up to `n`. -/
def advance (i : ℕ) : ℕ → State K V C α → State K V C α
  | 0, s => s
  | n + 1, s =>
    match s.running i with
    | some (c, .read k next) => advance i n (s.resume i c (next (some (s.table.row k))))
    | some (c, .query select next) =>
      advance i n (s.resume i c (next (some (s.table.rows select))))
    | some (c, .transact ops next) =>
      if s.table.Admits ops then advance i n ((s.commit i c ops).resume i c (next true))
      else advance i n (s.resume i c (next false))
    | _ => s

theorem launch_steps {S : Service K V C α} {s : State K V C α} {c : C} (hc : S.mayStart s.clock c) :
    Steps S s (s.launch S c) :=
  .single (.start s c hc)

/-- Taking turns is a run of the service. -/
theorem advance_steps {S : Service K V C α} (i n : ℕ) (s : State K V C α) :
    Steps S s (s.advance i n) := by
  induction n generalizing s with
  | zero => exact .refl
  | succ n ih =>
      unfold advance
      split
      · rename_i c k next hi
        exact (Relation.ReflTransGen.single (.read s i c k next hi)).trans (ih _)
      · rename_i c select next hi
        exact (Relation.ReflTransGen.single
          (.query s i c select next _ hi (List.Perm.refl _))).trans (ih _)
      · rename_i c ops next hi
        split
        · rename_i ha
          exact (Relation.ReflTransGen.single (.committed s i c ops next hi ha)).trans (ih _)
        · rename_i ha
          exact (Relation.ReflTransGen.single (.refused s i c ops next hi (.inr ha))).trans (ih _)
      · exact .refl

theorem advance_clock (i n : ℕ) (s : State K V C α) : (s.advance i n).clock = s.clock := by
  induction n generalizing s with
  | zero => rfl
  | succ n ih =>
      unfold advance
      split
      · exact ih _
      · exact ih _
      · split <;> exact ih _
      · rfl

/-- All that is committed while call `i` goes on is its own. -/
theorem advance_history {i n : ℕ} {s : State K V C α} {c : C} (h : ∀ d p, s.running i = some (d, p) → d = c) :
    ∀ e ∈ (s.advance i n).history, e ∈ s.history ∨ e.id = i ∧ e.call = c := by
  have hresume : ∀ {u : State K V C α} {d : C} {p : Program K V α}, d = c →
      ∀ d' p', (u.resume i d p).running i = some (d', p') → d' = c := by
    intro u d p hd d' p' hrunning
    cases hres : p.result? with
    | none =>
        rw [running_resume hres] at hrunning
        cases hrunning
        exact hd
    | some a => simp [resume, hres] at hrunning
  induction n generalizing s with
  | zero => exact fun e he => .inl he
  | succ n ih =>
      intro e he
      unfold advance at he
      split at he
      · exact ih (hresume (h _ _ ‹_›)) e he
      · exact ih (hresume (h _ _ ‹_›)) e he
      · split at he
        · rcases ih (hresume (h _ _ ‹_›)) e he with hmem | hown
          · rcases List.mem_cons.mp hmem with rfl | hmem
            · exact .inr ⟨rfl, h _ _ ‹_›⟩
            · exact .inl hmem
          · exact .inr hown
        · exact ih (hresume (h _ _ ‹_›)) e he
      · exact .inl he

/-- Call `i` goes on to its end, alone. -/
def finish (i : ℕ) (fates : List Fate) (s : State K V C α) : State K V C α :=
  match s.running i with
  | some (c, p) => if p.result?.isNone then drive i c p fates s else s
  | none => s

theorem finish_steps {S : Service K V C α} (hrefused : S.faults.writeRefused)
    (hlost : S.faults.responseLost) (i : ℕ) (fates : List Fate) (s : State K V C α) :
    Steps S s (s.finish i fates) := by
  unfold finish
  split
  · rename_i c p hi
    split
    · rename_i hp
      refine drive_steps hrefused hlost i c p fates s s ?_
      have hself : s.resume i c p = s := by
        simp [resume, Option.isNone_iff_eq_none.mp hp, ← hi]
      rw [hself]
    · exact .refl
  · exact .refl

end State

end RowStore
