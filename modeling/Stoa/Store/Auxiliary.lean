import Stoa.Store.Solo

/-! # Auxiliary state

What a call knows of its own past, that it owns a row or which row it has read,
is in no table. Auxiliary state says it: every running call carries a value, and
an invariant relates the table, the clock and the history to the values of all of
them. -/

namespace RowStore

variable {K : Type} {V : K → Type} {C α β X : Type} [DecidableEq K]

/-! ## Runs under a condition -/

/-- The step is a commit of a call: what is left of it then. -/
def Commits (s s' : State K V C α) (c : C) (p : Program K V α) : Prop :=
  ∃ i ops next, p = .transact ops next ∧ s.running i = some (c, p) ∧
    s'.history = ⟨i, c, s.clock, s.table, s.table.apply ops⟩ :: s.history

/-- A run whose commits all meet a condition on the call, on what is left of it,
and on the table that it commits to. -/
def StepsMeeting (S : Service K V C α) (Cond : C → Program K V α → Table K V → Prop) :
    State K V C α → State K V C α → Prop :=
  Relation.ReflTransGen fun s s' => Step S s s' ∧ ∀ c p, Commits s s' c p → Cond c p s.table

/-- The step refuses a transaction of a call: what is left of it then. -/
def Refuses (s s' : State K V C α) (c : C) (p : Program K V α) : Prop :=
  ∃ i ops next, p = .transact ops next ∧ s.running i = some (c, p) ∧ s' = s.resume i c (next false)

/-- The step starts a call of the service. -/
def Starts (S : Service K V C α) (s s' : State K V C α) (c : C) : Prop :=
  s' = s.open_.resume s.next c (S.body c)

/-- A run each of whose steps meets a condition. -/
def StepsWhere (S : Service K V C α) (P : State K V C α → State K V C α → Prop) :
    State K V C α → State K V C α → Prop :=
  Relation.ReflTransGen fun s s' => Step S s s' ∧ P s s'

theorem StepsWhere.steps {S : Service K V C α} {P : State K V C α → State K V C α → Prop}
    {s s' : State K V C α} (h : StepsWhere S P s s') : Steps S s s' := by
  induction h with
  | refl => exact .refl
  | tail _ hstep ih => exact ih.tail hstep.1

theorem StepsWhere.imp {S : Service K V C α} {P P' : State K V C α → State K V C α → Prop}
    {s s' : State K V C α} (h : StepsWhere S P s s') (hP : ∀ m m', P m m' → P' m m') : StepsWhere S P' s s' := by
  induction h with
  | refl => exact .refl
  | tail _ hstep ih => exact ih.tail ⟨hstep.1, hP _ _ hstep.2⟩

theorem StepsWhere.holds {S : Service K V C α} {Q : State K V C α → Prop} {s s' : State K V C α}
    (h : StepsWhere S (fun _ m => Q m) s s') (hs : Q s) : Q s' := by
  cases h with
  | refl => exact hs
  | tail _ hstep => exact hstep.2

/-- What the commit of every step meets holds of all commits. -/
theorem StepsWhere.forall_history {S : Service K V C α} {P : State K V C α → State K V C α → Prop}
    {R : Commit K V C → Prop} {t : Table K V} {s : State K V C α} (h : StepsWhere S P (.initial t) s)
    (hR : ∀ m m' e, P m m' → m'.history = e :: m.history → R e) : ∀ e ∈ s.history, R e := by
  induction h with
  | refl => exact fun e he => absurd he List.not_mem_nil
  | tail _ hstep ih =>
      obtain ⟨hstep, hP⟩ := hstep
      cases hstep with
      | committed i c ops next hi ha => exact List.forall_mem_cons.mpr ⟨hR _ _ _ hP rfl, ih⟩
      | responseLost i c ops next hi ha hf => exact List.forall_mem_cons.mpr ⟨hR _ _ _ hP rfl, ih⟩
      | _ => exact ih

/-- A condition that every step meets. -/
theorem Steps.where {S : Service K V C α} {P : State K V C α → State K V C α → Prop} {s s' : State K V C α}
    (h : Steps S s s') (hP : ∀ m m', P m m') : StepsWhere S P s s' := by
  induction h with
  | refl => exact .refl
  | tail _ hstep ih => exact ih.tail ⟨hstep, hP _ _⟩

theorem StepsMeeting.steps {S : Service K V C α} {Cond : C → Program K V α → Table K V → Prop}
    {s s' : State K V C α} (h : StepsMeeting S Cond s s') : Steps S s s' := by
  induction h with
  | refl => exact .refl
  | tail _ hstep ih => exact ih.tail hstep.1

/-! ## A call that runs alone -/

/-- Every commit of a call that runs alone meets a condition. -/
def Program.AloneMeets (Cond : Program K V α → Table K V → Prop) :
    Program K V α → Table K V → Prop
  | .ret _, _ => True
  | .read k next, t => (next (some (t.row k))).AloneMeets Cond t
  | .query select next, t => (next (some (t.rows select))).AloneMeets Cond t
  | .transact ops next, t =>
      (t.Admits ops → Cond (.transact ops next) t ∧ (next true).AloneMeets Cond (t.apply ops)) ∧
        (¬ t.Admits ops → (next false).AloneMeets Cond t)

theorem Program.aloneMeets_bind {Cond : Program K V β → Table K V → Prop} {p : Program K V α}
    {f : α → Program K V β} {t : Table K V}
    (hp : p.AloneMeets (fun q => Cond (q.bind f)) t)
    (hf : (f (p.alone t).1).AloneMeets Cond (p.alone t).2) : (p.bind f).AloneMeets Cond t := by
  induction p generalizing t with
  | ret a => exact hf
  | read k next ih => exact ih _ hp hf
  | query select next ih => exact ih _ hp hf
  | transact ops next ih =>
      refine ⟨fun ha => ⟨(hp.1 ha).1, ih _ (hp.1 ha).2 ?_⟩, fun hn => ih _ (hp.2 hn) ?_⟩
      · simpa only [alone, ha, if_true] using hf
      · simpa only [alone, hn, if_false] using hf

theorem Program.ReadOnly.aloneMeets {Cond : Program K V α → Table K V → Prop} {p : Program K V α}
    (h : p.ReadOnly) (t : Table K V) : p.AloneMeets Cond t ∧ (p.alone t).2 = t := by
  induction p with
  | ret a => exact ⟨trivial, rfl⟩
  | read k next ih => exact ih _ (h _)
  | query select next ih => exact ih _ (h _)
  | transact ops next => exact h.elim

theorem Program.aloneMeets_of_forall {Cond : Program K V α → Table K V → Prop}
    (h : ∀ p t, Cond p t) (p : Program K V α) (t : Table K V) : p.AloneMeets Cond t := by
  induction p generalizing t with
  | ret a => trivial
  | read k next ih => exact ih _ t
  | query select next ih => exact ih _ t
  | transact ops next ih => exact ⟨fun _ => ⟨h _ t, ih _ _⟩, fun _ => ih _ t⟩

section

variable {S : Service K V C α} {Cond : C → Program K V α → Table K V → Prop} {x s : State K V C α}
  {i : ℕ} {c : C} {p q : Program K V α}

/-- A step that commits nothing. -/
theorem StepsMeeting.quiet {s' : State K V C α} (h : StepsMeeting S Cond x s) (hstep : Step S s s')
    (hhistory : s'.history = s.history) : StepsMeeting S Cond x s' := by
  refine h.tail ⟨hstep, ?_⟩
  rintro c p ⟨i, ops, next, -, -, hcons⟩
  rw [hhistory] at hcons
  exact absurd hcons.symm (List.cons_ne_self _ _)

theorem StepsMeeting.drive (h : StepsMeeting S Cond x (s.resume i c p))
    (hp : p.AloneMeets (Cond c) s.table) : StepsMeeting S Cond x (State.drive i c p [] s) := by
  induction p generalizing s with
  | ret a => exact h
  | read k next ih =>
      refine ih _ ?_ hp
      have hstep := Step.read (S := S) _ i c k next (State.running_resume (s := s) rfl)
      rw [State.resume_resume rfl] at hstep
      exact h.quiet hstep rfl
  | query select next ih =>
      refine ih _ ?_ hp
      have hstep := Step.query (S := S) _ i c select next (s.table.rows select)
        (State.running_resume (s := s) rfl) (List.Perm.refl _)
      rw [State.resume_resume rfl] at hstep
      exact h.quiet hstep rfl
  | transact ops next ih =>
      have hrun := State.running_resume (i := i) (c := c) (s := s) (p := .transact ops next) rfl
      unfold State.drive
      split
      · rename_i ha
        obtain ⟨hcond, hnext⟩ := hp.1 ha
        refine ih true (s := s.commit i c ops) ?_ hnext
        have hstep := Step.committed (S := S) _ i c ops next hrun ha
        rw [State.commit_resume_resume rfl] at hstep
        refine h.tail ⟨hstep, ?_⟩
        rintro d q ⟨j, ops', next', hq, hj, hhistory⟩
        obtain ⟨hentry, -⟩ := List.cons.inj hhistory
        obtain ⟨rfl, rfl, -⟩ := Commit.mk.inj hentry
        cases hj.symm.trans hrun
        exact hcond
      · rename_i ha
        refine ih _ ?_ (hp.2 ha)
        have hstep := Step.refused (S := S) _ i c ops next hrun (.inr ha)
        rw [State.resume_resume rfl] at hstep
        exact h.quiet hstep rfl

theorem StepsMeeting.solo (h : StepsMeeting S Cond x s) (hc : S.mayStart s.clock c)
    (hp : (S.body c).AloneMeets (Cond c) s.table) : StepsMeeting S Cond x (s.solo S c []) :=
  (h.quiet (.start s c hc) rfl).drive hp

end

/-! ## Calls that keep an invariant -/

/-- What an invariant may speak of: all of a state but the calls. -/
structure View (K : Type) (V : K → Type) (C : Type) where
  table : Table K V
  clock : ℕ
  history : List (Commit K V C)

def State.view (s : State K V C α) : View K V C := ⟨s.table, s.clock, s.history⟩

/-- Call `i` commits the transaction `ops`. -/
def View.commit (w : View K V C) (i : ℕ) (c : C) (ops : List (Write K V)) : View K V C where
  table := w.table.apply ops
  clock := w.clock
  history := ⟨i, c, w.clock, w.table, w.table.apply ops⟩ :: w.history

section

variable {w : View K V C} {i : ℕ} {c : C} {ops : List (Write K V)}

@[simp] theorem View.table_commit : (w.commit i c ops).table = w.table.apply ops := rfl

@[simp] theorem View.clock_commit : (w.commit i c ops).clock = w.clock := rfl

@[simp] theorem View.history_commit : (w.commit i c ops).history =
    ⟨i, c, w.clock, w.table, w.table.apply ops⟩ :: w.history := rfl

end

/-- How accesses may fail in a run. -/
structure Access (K : Type) (V : K → Type) where
  readRaises : Prop
  refuses : List (Write K V) → Table K V → Prop
  responseLost : Prop

/-- A write is refused by its condition, or by a fault. -/
def Faults.access (F : Faults) : Access K V :=
  ⟨F.readRaises, fun ops t => F.writeRefused ∨ ¬ t.Admits ops, F.responseLost⟩

instance : Coe Faults (Access K V) := ⟨Faults.access⟩

variable (F : Access K V) (Φ : View K V C → (ℕ → Option X) → Prop)

/-- The invariant stays, with some value for the call under which it goes on so. -/
def Continues (P : X → Prop) (w : View K V C) (g : ℕ → Option X) (i : ℕ) : Prop :=
  ∃ y, Φ w (Function.update g i (some y)) ∧ P y

/-- A program of the call `c`, started as `i`, keeps the invariant from a value
on: every access has a value to go on with, and it ends with one in `Q`. -/
def Program.Keeps (Cond : Program K V α → Table K V → Prop) (i : ℕ) (c : C) (Q : α → X → Prop) :
    Program K V α → X → Prop
  | .ret a, x => Q a x
  | .read k next, x => ∀ w g, Φ w g → g i = some x →
      Continues Φ (fun y => (next (some (w.table.row k))).Keeps Cond i c Q y) w g i ∧
        (F.readRaises → Continues Φ (fun y => (next none).Keeps Cond i c Q y) w g i)
  | .query select next, x => ∀ w g, Φ w g → g i = some x →
      (∀ rows, w.table.Answers select rows →
        Continues Φ (fun y => (next (some rows)).Keeps Cond i c Q y) w g i) ∧
        (F.readRaises → Continues Φ (fun y => (next none).Keeps Cond i c Q y) w g i)
  | .transact ops next, x => ∀ w g, Φ w g → g i = some x →
      (F.refuses ops w.table →
        Continues Φ (fun y => (next false).Keeps Cond i c Q y) w g i) ∧
      (w.table.Admits ops → Cond (.transact ops next) w.table →
        Continues Φ (fun y => (next true).Keeps Cond i c Q y) (w.commit i c ops) g i ∧
        (F.responseLost →
          Continues Φ (fun y => (next false).Keeps Cond i c Q y) (w.commit i c ops) g i))

variable {F Φ}

omit [DecidableEq K] in
theorem Continues.imp {P P' : X → Prop} {w : View K V C} {g : ℕ → Option X} {i : ℕ}
    (h : Continues Φ P w g i) (hP : ∀ y, P y → P' y) : Continues Φ P' w g i := by
  obtain ⟨y, hy, hPy⟩ := h
  exact ⟨y, hy, hP y hPy⟩

omit [DecidableEq K] in
/-- Going on with the same value. -/
theorem Continues.same {P : X → Prop} {w : View K V C} {g : ℕ → Option X} {i : ℕ} {x : X}
    (h : Φ w g) (hi : g i = some x) (hx : P x) : Continues Φ P w g i :=
  ⟨x, by rwa [← hi, Function.update_eq_self], hx⟩

namespace Program

variable {Cond : Program K V α → Table K V → Prop} {i : ℕ} {c : C} {Q Q' : α → X → Prop} {x : X}

theorem Keeps.mono {p : Program K V α} (h : p.Keeps F Φ Cond i c Q x)
    (hQ : ∀ a y, Q a y → Q' a y) : p.Keeps F Φ Cond i c Q' x := by
  induction p generalizing x with
  | ret a => exact hQ a x h
  | read k next ih =>
      intro w g hg hi
      obtain ⟨hread, hraises⟩ := h w g hg hi
      exact ⟨hread.imp fun _ => ih _, fun hf => (hraises hf).imp fun _ => ih _⟩
  | query select next ih =>
      intro w g hg hi
      obtain ⟨hread, hraises⟩ := h w g hg hi
      exact ⟨fun rows ha => (hread rows ha).imp fun _ => ih _, fun hf => (hraises hf).imp fun _ => ih _⟩
  | transact ops next ih =>
      intro w g hg hi
      obtain ⟨hrefused, hcommit⟩ := h w g hg hi
      refine ⟨fun hn => (hrefused hn).imp fun _ => ih _, fun ha hc => ?_⟩
      obtain ⟨hok, hlost⟩ := hcommit ha hc
      exact ⟨hok.imp fun _ => ih _, fun hf => (hlost hf).imp fun _ => ih _⟩

/-- The rule for `bind`: the condition is on what is left of the whole. -/
theorem keeps_bind {Cond : Program K V β → Table K V → Prop} {Q : β → X → Prop}
    {p : Program K V α} {f : α → Program K V β}
    (h : p.Keeps F Φ (fun q => Cond (q.bind f)) i c (fun a y => (f a).Keeps F Φ Cond i c Q y) x) :
    (p.bind f).Keeps F Φ Cond i c Q x := by
  induction p generalizing x with
  | ret a => exact h
  | read k next ih =>
      intro w g hg hi
      obtain ⟨hread, hraises⟩ := h w g hg hi
      exact ⟨hread.imp fun _ => ih _, fun hf => (hraises hf).imp fun _ => ih _⟩
  | query select next ih =>
      intro w g hg hi
      obtain ⟨hread, hraises⟩ := h w g hg hi
      exact ⟨fun rows ha => (hread rows ha).imp fun _ => ih _, fun hf => (hraises hf).imp fun _ => ih _⟩
  | transact ops next ih =>
      intro w g hg hi
      obtain ⟨hrefused, hcommit⟩ := h w g hg hi
      refine ⟨fun hn => (hrefused hn).imp fun _ => ih _, fun ha hc => ?_⟩
      obtain ⟨hok, hlost⟩ := hcommit ha hc
      exact ⟨hok.imp fun _ => ih _, fun hf => (hlost hf).imp fun _ => ih _⟩

/-- A program that commits nothing keeps every invariant, with the same value. -/
theorem ReadOnly.keeps {p : Program K V α} (h : p.ReadOnly) (hQ : ∀ a, Q a x) :
    p.Keeps F Φ Cond i c Q x := by
  induction p with
  | ret a => exact hQ a
  | read k next ih =>
      exact fun w g hg hi => ⟨.same hg hi (ih _ (h _)), fun _ => .same hg hi (ih _ (h _))⟩
  | query select next ih =>
      exact fun w g hg hi => ⟨fun rows _ => .same hg hi (ih _ (h rows)),
        fun _ => .same hg hi (ih _ (h _))⟩
  | transact ops next => exact h.elim

end Program

/-! ## What a program submits -/

namespace Program

/-- Every transaction that a program may submit, whatever it reads. -/
def Submits (T : List (Write K V) → Prop) : Program K V α → Prop
  | .ret _ => True
  | .read _ next => ∀ row, (next row).Submits T
  | .query _ next => ∀ rows, (next rows).Submits T
  | .transact ops next => T ops ∧ ∀ done, (next done).Submits T

variable {T : List (Write K V) → Prop}

omit [DecidableEq K] in
theorem Submits.bind {p : Program K V α} {f : α → Program K V β} (hp : p.Submits T)
    (hf : ∀ a, (f a).Submits T) : (p.bind f).Submits T := by
  induction p with
  | ret a => exact hf a
  | read k next ih => exact fun row => ih row (hp row)
  | query select next ih => exact fun rows => ih rows (hp rows)
  | transact ops next ih => exact ⟨hp.1, fun done => ih done (hp.2 done)⟩

omit [DecidableEq K] in
theorem Submits.imp {T' : List (Write K V) → Prop} {p : Program K V α} (h : p.Submits T)
    (hT : ∀ ops, T ops → T' ops) : p.Submits T' := by
  induction p with
  | ret a => trivial
  | read k next ih => exact fun row => ih row (h row)
  | query select next ih => exact fun rows => ih rows (h rows)
  | transact ops next ih => exact ⟨hT ops h.1, fun done => ih done (h.2 done)⟩

omit [DecidableEq K] in
theorem ReadOnly.submits {p : Program K V α} (h : p.ReadOnly) : p.Submits T := by
  induction p with
  | ret a => trivial
  | read k next ih => exact fun row => ih row (h row)
  | query select next ih => exact fun rows => ih rows (h rows)
  | transact ops next => exact h.elim

/-- A program is safe if all that it may submit is in the guarantee. -/
theorem Submits.safe {F : Faults} {I : Interference K V} {G : Table K V → Table K V → Prop} {p : Program K V α}
    (h : p.Submits T) (hmove : ∀ ops t, T ops → I.Inv t → t.Admits ops → G t (t.apply ops))
    {own : List (Table K V × Table K V)} {t : Table K V} :
    p.Safe F I G (fun _ _ _ => True) own t := by
  induction p generalizing own t with
  | ret a => trivial
  | read k next ih => exact fun _ _ _ => ⟨ih _ (h _), fun _ => ih _ (h _)⟩
  | query select next ih => exact fun _ _ _ => ⟨fun rows _ => ih _ (h rows), fun _ => ih _ (h _)⟩
  | transact ops next ih =>
      intro u _ hi
      exact ⟨fun _ => ih _ (h.2 _), fun ha =>
        ⟨hmove ops u h.1 hi ha, ih _ (h.2 _), fun _ => ih _ (h.2 _)⟩⟩

theorem Submits.aloneMeets {Cond : Program K V α → Table K V → Prop} {p : Program K V α}
    (h : p.Submits T) (hT : ∀ ops next t, T ops → Cond (.transact ops next) t) (t : Table K V) :
    p.AloneMeets Cond t := by
  induction p generalizing t with
  | ret a => trivial
  | read k next ih => exact ih _ (h _) t
  | query select next ih => exact ih _ (h _) t
  | transact ops next ih =>
      exact ⟨fun _ => ⟨hT ops next t h.1, ih _ (h.2 _) _⟩, fun _ => ih _ (h.2 _) t⟩

/-- What every transaction keeps holds after a call that runs alone. -/
theorem Submits.alone_holds {P : Table K V → Prop} {p : Program K V α} {t : Table K V}
    (h : p.Submits fun ops => ∀ t, P t → P (t.apply ops)) (ht : P t) : P (p.alone t).2 := by
  induction p generalizing t with
  | ret a => exact ht
  | read k next ih => exact ih _ (h _) ht
  | query select next ih => exact ih _ (h _) ht
  | transact ops next ih =>
      rw [alone]
      split
      · exact ih _ (h.2 _) (h.1 t ht)
      · exact ih _ (h.2 _) ht

/-- An invariant that every transaction keeps, with the same value for the call. -/
theorem Submits.keeps {Cond : Program K V α → Table K V → Prop} {i : ℕ} {c : C} {x : X}
    {Q : α → X → Prop} {p : Program K V α} (h : p.Submits T) (hQ : ∀ a, Q a x)
    (hcommit : ∀ ops next w g, T ops → Φ w g → g i = some x → w.table.Admits ops →
      Cond (.transact ops next) w.table → Φ (w.commit i c ops) g) :
    p.Keeps F Φ Cond i c Q x := by
  induction p with
  | ret a => exact hQ a
  | read k next ih =>
      exact fun w g hg hi => ⟨.same hg hi (ih _ (h _)), fun _ => .same hg hi (ih _ (h _))⟩
  | query select next ih =>
      exact fun w g hg hi => ⟨fun rows _ => .same hg hi (ih _ (h _)),
        fun _ => .same hg hi (ih _ (h _))⟩
  | transact ops next ih =>
      intro w g hg hi
      refine ⟨fun _ => .same hg hi (ih _ (h.2 _)), fun ha hc => ?_⟩
      have hnext := hcommit ops next w g h.1 hg hi ha hc
      exact ⟨.same hnext hi (ih _ (h.2 _)), fun _ => .same hnext hi (ih _ (h.2 _))⟩

end Program

/-- A call that runs alone keeps what each of its transactions keeps. -/
theorem StepsWhere.drive {S : Service K V C α} {Q : Table K V → Prop} {x s : State K V C α} {i : ℕ} {c : C}
    {p : Program K V α} (h : StepsWhere S (fun _ m => Q m.table) x (s.resume i c p)) (hQ : Q s.table)
    (hp : p.Submits fun ops => ∀ t, Q t → Q (t.apply ops)) :
    StepsWhere S (fun _ m => Q m.table) x (State.drive i c p [] s) := by
  induction p generalizing s with
  | ret a => exact h
  | read k next ih =>
      refine ih _ ?_ hQ (hp _)
      have hstep := Step.read (S := S) _ i c k next (State.running_resume (s := s) rfl)
      rw [State.resume_resume rfl] at hstep
      exact h.tail ⟨hstep, hQ⟩
  | query select next ih =>
      refine ih _ ?_ hQ (hp _)
      have hstep := Step.query (S := S) _ i c select next (s.table.rows select)
        (State.running_resume (s := s) rfl) (List.Perm.refl _)
      rw [State.resume_resume rfl] at hstep
      exact h.tail ⟨hstep, hQ⟩
  | transact ops next ih =>
      have hrun := State.running_resume (i := i) (c := c) (s := s) (p := .transact ops next) rfl
      unfold State.drive
      split
      · rename_i ha
        refine ih true (s := s.commit i c ops) ?_ (hp.1 _ hQ) (hp.2 _)
        have hstep := Step.committed (S := S) _ i c ops next hrun ha
        rw [State.commit_resume_resume rfl] at hstep
        exact h.tail ⟨hstep, hp.1 _ hQ⟩
      · rename_i ha
        refine ih _ ?_ hQ (hp.2 _)
        have hstep := Step.refused (S := S) _ i c ops next hrun (.inr ha)
        rw [State.resume_resume rfl] at hstep
        exact h.tail ⟨hstep, hQ⟩

theorem StepsWhere.solo {S : Service K V C α} {Q : Table K V → Prop} {x s : State K V C α} {c : C}
    (h : StepsWhere S (fun _ m => Q m.table) x s) (hQ : Q s.table) (hc : S.mayStart s.clock c)
    (hp : (S.body c).Submits fun ops => ∀ t, Q t → Q (t.apply ops)) :
    StepsWhere S (fun _ m => Q m.table) x (s.solo S c []) :=
  StepsWhere.drive (h.tail ⟨.start s c hc, hQ⟩) hQ hp

/-! ## Every run -/

/-- What was owed when a call returned: the invariant held on a view of a time
that the history still shows, with a value for the call in `Q`. -/
def Owed (Φ : View K V C → (ℕ → Option X) → Prop) (Q : C → α → X → Prop) (r : Return K V C α)
    (history : List (Commit K V C)) : Prop :=
  ∃ w g x, Φ w g ∧ g r.id = some x ∧ Q r.call r.result x ∧ w.table = r.table ∧
    w.history <:+ history

/-- What holds in every state of a run: the invariant, with a value for every
running call under which the rest of it keeps the invariant. -/
structure Kept (F : Access K V) (Φ : View K V C → (ℕ → Option X) → Prop)
    (Cond : C → Program K V α → Table K V → Prop) (Q : C → α → X → Prop) (s : State K V C α)
    (g : ℕ → Option X) : Prop where
  holds : Φ s.view g
  running : ∀ i c p, s.running i = some (c, p) →
    ∃ x, g i = some x ∧ p.Keeps F Φ (Cond c) i c (Q c) x
  fresh : ∀ i, s.next ≤ i → s.running i = none ∧ g i = none
  idle : ∀ i, s.running i = none → g i = none
  committed : ∀ e ∈ s.history, e.id < s.next
  returned : ∀ r ∈ s.returned, Owed Φ Q r s.history

namespace Kept

variable {Cond : C → Program K V α → Table K V → Prop} {Q : C → α → X → Prop} {s : State K V C α}
  {g : ℕ → Option X}

/-- A call goes on, and returns if that has a result. -/
theorem resume (hreturns : ∀ w g i, Φ w g → Φ w (Function.update g i none)) {i : ℕ} {c : C}
    {p : Program K V α}
    (hrunning : ∀ j d q, j ≠ i → s.running j = some (d, q) →
      ∃ x, g j = some x ∧ q.Keeps F Φ (Cond d) j d (Q d) x)
    (hfresh : ∀ j, s.next ≤ j → s.running j = none ∧ g j = none)
    (hidle : ∀ j, j ≠ i → s.running j = none → g j = none)
    (hcommitted : ∀ e ∈ s.history, e.id < s.next)
    (hreturned : ∀ r ∈ s.returned, Owed Φ Q r s.history) (hi : i < s.next)
    (h : Continues Φ (fun y => p.Keeps F Φ (Cond c) i c (Q c) y) s.view g i) :
    ∃ g', Kept F Φ Cond Q (s.resume i c p) g' := by
  obtain ⟨y, hy, hp⟩ := h
  cases hres : p.result? with
  | some a =>
      have hrun : (s.resume i c p).running = Function.update s.running i none := by
        simp [State.resume, hres]
      have hret : (s.resume i c p).returned = ⟨i, c, a, s.table⟩ :: s.returned := by
        simp [State.resume, hres]
      refine ⟨Function.update g i none, ?_, ?_, ?_, ?_, hcommitted, ?_⟩
      · have hnone := hreturns _ _ i hy
        rwa [Function.update_idem] at hnone
      · intro j d q hj
        rw [hrun] at hj
        by_cases hji : j = i
        · subst hji
          simp at hj
        · rw [Function.update_of_ne hji] at hj ⊢
          exact hrunning j d q hji hj
      · intro j hj
        have hji : j ≠ i := by
          have : (s.resume i c p).next = s.next := rfl
          omega
        rw [hrun, Function.update_of_ne hji, Function.update_of_ne hji]
        exact hfresh j hj
      · intro j hj
        by_cases hji : j = i
        · subst hji
          exact Function.update_self ..
        · rw [hrun, Function.update_of_ne hji] at hj
          rw [Function.update_of_ne hji]
          exact hidle j hji hj
      · rw [hret]
        refine List.forall_mem_cons.mpr ⟨?_, hreturned⟩
        rw [Program.eq_ret_of_result? hres] at hp
        exact ⟨s.view, _, y, hy, Function.update_self .., hp, rfl, List.suffix_refl _⟩
  | none =>
      have hrun : (s.resume i c p).running = Function.update s.running i (some (c, p)) := by
        simp [State.resume, hres]
      have hret : (s.resume i c p).returned = s.returned := by simp [State.resume, hres]
      refine ⟨Function.update g i (some y), hy, ?_, ?_, ?_, hcommitted, by rw [hret]; exact hreturned⟩
      · intro j d q hj
        rw [hrun] at hj
        by_cases hji : j = i
        · subst hji
          simp only [Function.update_self, Option.some_inj, Prod.mk.injEq] at hj
          obtain ⟨rfl, rfl⟩ := hj
          exact ⟨y, Function.update_self .., hp⟩
        · rw [Function.update_of_ne hji] at hj ⊢
          exact hrunning j d q hji hj
      · intro j hj
        have hji : j ≠ i := by
          have : (s.resume i c p).next = s.next := rfl
          omega
        rw [hrun, Function.update_of_ne hji, Function.update_of_ne hji]
        exact hfresh j hj
      · intro j hj
        by_cases hji : j = i
        · subst hji
          rw [hrun, Function.update_self] at hj
          cases hj
        · rw [hrun, Function.update_of_ne hji] at hj
          rw [Function.update_of_ne hji]
          exact hidle j hji hj

/-- The rule for one step. -/
theorem step {S : Service K V C α} {s' : State K V C α} (h : Kept F Φ Cond Q s g)
    (hreturns : ∀ w g i, Φ w g → Φ w (Function.update g i none))
    (hdrift : ∀ t, s' = { s with table := t } → S.drift s.table t → (∀ i, s.running i = none → g i = none) →
      Φ { s.view with table := t } g)
    (htick : ∀ n, s' = { s with clock := n } → s.clock ≤ n → Φ { s.view with clock := n } g)
    (hstart : ∀ c, Starts S s s' c → g s.next = none → (∀ e ∈ s.history, e.id ≠ s.next) →
      S.mayStart s.clock c →
        Continues Φ (fun y => (S.body c).Keeps F Φ (Cond c) s.next c (Q c) y) s.view g s.next)
    (hraises : S.faults.readRaises → F.readRaises) (hlost : S.faults.responseLost → F.responseLost)
    (hstep : Step S s s') (hcond : ∀ c p, Commits s s' c p → Cond c p s.table)
    (hrefuses : ∀ c ops next, Refuses s s' c (.transact ops next) → S.faults.access.refuses ops s.table →
      F.refuses ops s.table) :
    ∃ g', Kept F Φ Cond Q s' g' := by
  have hlt : ∀ {i c p}, s.running i = some (c, p) → i < s.next := fun {i c p} hi => by
    by_contra hge
    rw [(h.fresh i (not_lt.mp hge)).1] at hi
    cases hi
  have hrest : ∀ {i : ℕ}, ∀ j d q, j ≠ i → s.running j = some (d, q) →
      ∃ x, g j = some x ∧ q.Keeps F Φ (Cond d) j d (Q d) x :=
    fun j d q _ hj => h.running j d q hj
  -- A commit only adds to the history.
  have howed : ∀ {i c ops}, ∀ r ∈ s.returned, Owed Φ Q r (s.commit i c ops).history :=
    fun r hr => by
      obtain ⟨w, g, x, hg, hx, hq, htable, hhistory⟩ := h.returned r hr
      exact ⟨w, g, x, hg, hx, hq, htable, hhistory.trans (List.suffix_cons _ _)⟩
  have hcommitted : ∀ {i c ops}, i < s.next → ∀ e ∈ (s.commit i c ops).history, e.id < s.next :=
    fun hi e he => by
      rcases List.mem_cons.mp he with rfl | he
      · exact hi
      · exact h.committed e he
  cases hstep with
  | start c hc =>
      have hnew := (h.fresh s.next le_rfl)
      exact resume (s := s.open_) hreturns hrest
        (fun j hj => h.fresh j (Nat.le_of_succ_le hj)) (fun j _ => h.idle j)
        (fun e he => (h.committed e he).trans (Nat.lt_succ_self _)) h.returned (Nat.lt_succ_self _)
        (hstart c rfl hnew.2 (fun e he => (h.committed e he).ne) hc)
  | read i c k next hi =>
      obtain ⟨x, hx, hp⟩ := h.running i c _ hi
      exact resume hreturns hrest h.fresh (fun j _ => h.idle j) h.committed h.returned (hlt hi) (hp s.view g h.holds hx).1
  | readRaises i c k next hi hf =>
      obtain ⟨x, hx, hp⟩ := h.running i c _ hi
      exact resume hreturns hrest h.fresh (fun j _ => h.idle j) h.committed h.returned (hlt hi)
        ((hp s.view g h.holds hx).2 (hraises hf))
  | query i c select next rows hi ha =>
      obtain ⟨x, hx, hp⟩ := h.running i c _ hi
      exact resume hreturns hrest h.fresh (fun j _ => h.idle j) h.committed h.returned (hlt hi) ((hp s.view g h.holds hx).1 rows ha)
  | queryRaises i c select next hi hf =>
      obtain ⟨x, hx, hp⟩ := h.running i c _ hi
      exact resume hreturns hrest h.fresh (fun j _ => h.idle j) h.committed h.returned (hlt hi)
        ((hp s.view g h.holds hx).2 (hraises hf))
  | refused i c ops next hi hf =>
      obtain ⟨x, hx, hp⟩ := h.running i c _ hi
      exact resume hreturns hrest h.fresh (fun j _ => h.idle j) h.committed h.returned (hlt hi)
        ((hp s.view g h.holds hx).1 (hrefuses c ops next ⟨i, ops, next, rfl, hi, rfl⟩ hf))
  | committed i c ops next hi ha =>
      obtain ⟨x, hx, hp⟩ := h.running i c _ hi
      exact resume (s := s.commit i c ops) hreturns hrest h.fresh (fun j _ => h.idle j) (hcommitted (hlt hi)) howed (hlt hi)
        ((hp s.view g h.holds hx).2 ha (hcond c _ ⟨i, ops, next, rfl, hi, rfl⟩)).1
  | responseLost i c ops next hi ha hf =>
      obtain ⟨x, hx, hp⟩ := h.running i c _ hi
      exact resume (s := s.commit i c ops) hreturns hrest h.fresh (fun j _ => h.idle j) (hcommitted (hlt hi)) howed (hlt hi)
        (((hp s.view g h.holds hx).2 ha (hcond c _ ⟨i, ops, next, rfl, hi, rfl⟩)).2 (hlost hf))
  | drift t ht => exact ⟨g, hdrift t rfl ht h.idle, h.running, h.fresh, h.idle, h.committed, h.returned⟩
  | tick n hn => exact ⟨g, htick n rfl hn, h.running, h.fresh, h.idle, h.committed, h.returned⟩

end Kept

/-- The rule for runs: an invariant that the calls keep holds in every state of a
run whose steps meet what it needs. -/
theorem StepsWhere.kept_along {S : Service K V C α} {P : State K V C α → State K V C α → Prop}
    {Cond : C → Program K V α → Table K V → Prop} {Q : C → α → X → Prop} {t : Table K V}
    {s : State K V C α} (h : StepsWhere S P (.initial t) s) (hinit : Φ ⟨t, 0, []⟩ fun _ => none)
    (hreturns : ∀ w g i, Φ w g → Φ w (Function.update g i none))
    (hdrift : ∀ m m' g t, P m m' → m' = { m with table := t } → Φ m.view g → S.drift m.table t →
      (∀ i, m.running i = none → g i = none) → Φ { m.view with table := t } g)
    (htick : ∀ m m' g n, P m m' → m' = { m with clock := n } → Φ m.view g → m.clock ≤ n →
      Φ { m.view with clock := n } g)
    (hstart : ∀ m m' c g, P m m' → Starts S m m' c → Φ m.view g → g m.next = none →
      (∀ e ∈ m.history, e.id ≠ m.next) → S.mayStart m.clock c →
        Continues Φ (fun y => (S.body c).Keeps F Φ (Cond c) m.next c (Q c) y) m.view g m.next)
    (hraises : S.faults.readRaises → F.readRaises) (hlost : S.faults.responseLost → F.responseLost)
    (hcond : ∀ m m', P m m' → ∀ c p, Commits m m' c p → Cond c p m.table)
    (hrefuses : ∀ m m', P m m' → ∀ c ops next, Refuses m m' c (.transact ops next) →
      S.faults.access.refuses ops m.table → F.refuses ops m.table) :
    ∃ g, Kept F Φ Cond Q s g := by
  induction h with
  | refl =>
      exact ⟨fun _ => none, hinit, by simp [State.initial], fun _ _ => ⟨rfl, rfl⟩, fun _ _ => rfl,
        by simp [State.initial], by simp [State.initial]⟩
  | tail _ hstep ih =>
      obtain ⟨g, hg⟩ := ih
      exact hg.step hreturns (fun t ht hdrifts => hdrift _ _ g t hstep.2 ht hg.holds hdrifts)
        (fun n hn => htick _ _ g n hstep.2 hn hg.holds) (fun c hc => hstart _ _ c g hstep.2 hc hg.holds) hraises hlost
        hstep.1 (hcond _ _ hstep.2) (hrefuses _ _ hstep.2)

/-- The same where other code and the clock need no condition. -/
theorem StepsWhere.kept {S : Service K V C α} {P : State K V C α → State K V C α → Prop}
    {Cond : C → Program K V α → Table K V → Prop} {Q : C → α → X → Prop} {t : Table K V}
    {s : State K V C α} (h : StepsWhere S P (.initial t) s) (hinit : Φ ⟨t, 0, []⟩ fun _ => none)
    (hreturns : ∀ w g i, Φ w g → Φ w (Function.update g i none))
    (hdrift : ∀ w g t, Φ w g → S.drift w.table t → Φ { w with table := t } g)
    (htick : ∀ w g n, Φ w g → w.clock ≤ n → Φ { w with clock := n } g)
    (hstart : ∀ m m' c g, P m m' → Starts S m m' c → Φ m.view g → g m.next = none →
      (∀ e ∈ m.history, e.id ≠ m.next) → S.mayStart m.clock c →
        Continues Φ (fun y => (S.body c).Keeps F Φ (Cond c) m.next c (Q c) y) m.view g m.next)
    (hraises : S.faults.readRaises → F.readRaises) (hlost : S.faults.responseLost → F.responseLost)
    (hcond : ∀ m m', P m m' → ∀ c p, Commits m m' c p → Cond c p m.table)
    (hrefuses : ∀ m m', P m m' → ∀ c ops next, Refuses m m' c (.transact ops next) →
      S.faults.access.refuses ops m.table → F.refuses ops m.table) :
    ∃ g, Kept F Φ Cond Q s g :=
  h.kept_along hinit hreturns (fun m _ g t _ _ hg ht _ => hdrift m.view g t hg ht) (fun m _ g n _ _ => htick m.view g n)
    hstart hraises hlost hcond hrefuses

/-- The same under a condition on the commits alone. -/
theorem StepsMeeting.kept {S : Service K V C α} {Cond : C → Program K V α → Table K V → Prop}
    {Q : C → α → X → Prop} {t : Table K V} {s : State K V C α}
    (h : StepsMeeting S Cond (.initial t) s) (hinit : Φ ⟨t, 0, []⟩ fun _ => none)
    (hreturns : ∀ w g i, Φ w g → Φ w (Function.update g i none))
    (hdrift : ∀ w g t, Φ w g → S.drift w.table t → Φ { w with table := t } g)
    (htick : ∀ w g n, Φ w g → w.clock ≤ n → Φ { w with clock := n } g)
    (hstart : ∀ c w g i, Φ w g → g i = none → (∀ e ∈ w.history, e.id ≠ i) → S.mayStart w.clock c →
      Continues Φ (fun y => (S.body c).Keeps S.faults Φ (Cond c) i c (Q c) y) w g i) :
    ∃ g, Kept S.faults Φ Cond Q s g :=
  StepsWhere.kept h hinit hreturns hdrift htick (fun m _ c g _ _ => hstart c m.view g m.next) id id
    (fun _ _ hP => hP) fun _ _ _ _ _ _ _ h => h

/-- Every run meets the condition that asks nothing. -/
theorem Steps.meeting {S : Service K V C α} {s s' : State K V C α} (h : Steps S s s') :
    StepsMeeting S (fun _ _ _ => True) s s' := by
  induction h with
  | refl => exact .refl
  | tail _ hstep ih => exact ih.tail ⟨hstep, fun _ _ _ => trivial⟩

/-! ## Handlers -/

namespace Handler

section

variable {ε : Type} {T : List (Write K V) → Prop}

omit [DecidableEq K]

theorem submits_bind {y : Handler K V ε α} {f : α → Handler K V ε β} (hy : y.run.Submits T)
    (hf : ∀ a, (f a).run.Submits T) : (y >>= f).run.Submits T := by
  refine Program.Submits.bind hy fun r => ?_
  cases r with
  | ok a => exact hf a
  | error e => trivial

theorem submits_of_bind {y : Except ε α} {f : α → Handler K V ε β}
    (hf : ∀ a, y = .ok a → (f a).run.Submits T) : (of y >>= f).run.Submits T := by
  cases y with
  | ok a => exact hf a rfl
  | error e => trivial

theorem submits_map {y : Handler K V ε α} {f : α → β} (hy : y.run.Submits T) :
    (f <$> y).run.Submits T :=
  Program.Submits.bind hy fun r => by cases r <;> trivial

theorem submits_tryCatch {y : Handler K V ε α} {f : ε → Handler K V ε α} (hy : y.run.Submits T)
    (hf : ∀ e, (f e).run.Submits T) : (tryCatch y f : Handler K V ε α).run.Submits T := by
  refine Program.Submits.bind hy fun r => ?_
  cases r with
  | ok a => trivial
  | error e => exact hf e

theorem submits_get {e : ε} {k : K} : (get e k : Handler K V ε _).run.Submits T :=
  readOnly_get.submits

theorem submits_submit_bind {ops : List (Write K V)} {f : Bool → Handler K V ε β} (hops : T ops)
    (hf : ∀ done, (f done).run.Submits T) : (submit ops >>= f).run.Submits T :=
  ⟨hops, hf⟩

end

variable {ε : Type} {Cond : Program K V (Except ε β) → Table K V → Prop} {i : ℕ} {c : C}
  {Q : Except ε β → X → Prop} {x : X}

theorem keeps_bind {y : Handler K V ε α} {f : α → Handler K V ε β}
    (h : y.run.Keeps F Φ (fun q => Cond (q.bind (ExceptT.bindCont f))) i c
      (fun r z => (ExceptT.bindCont f r : Program K V (Except ε β)).Keeps F Φ Cond i c Q z) x) :
    (y >>= f).run.Keeps F Φ Cond i c Q x :=
  Program.keeps_bind h

theorem keeps_map {y : Handler K V ε α} {f : α → β}
    (h : y.run.Keeps F Φ (fun q => Cond (q.bind fun r => .ret (r.map f))) i c
      (fun r z => Q (r.map f) z) x) : (f <$> y).run.Keeps F Φ Cond i c Q x := by
  have hcont : (f <$> y).run = y.run.bind fun r => .ret (r.map f) :=
    congrArg (Program.bind y.run) (funext fun r => by cases r <;> rfl)
  rw [hcont]
  exact Program.keeps_bind h

/-- What is owed where an error is caught: that the handler of it goes on. -/
def Caught (F : Access K V) (Φ : View K V C → (ℕ → Option X) → Prop)
    (Cond : Program K V (Except ε β) → Table K V → Prop) (i : ℕ) (c : C) (Q : Except ε β → X → Prop)
    (f : ε → Handler K V ε β) : Except ε β → X → Prop
  | .ok a, z => Q (.ok a) z
  | .error e, z => (f e).run.Keeps F Φ Cond i c Q z

theorem keeps_tryCatch {y : Handler K V ε β} {f : ε → Handler K V ε β}
    (h : y.run.Keeps F Φ (fun q => Cond (q.bind fun
      | .ok a => .ret (.ok a)
      | .error e => (f e).run)) i c (Caught F Φ Cond i c Q f) x) :
    (tryCatch y f : Handler K V ε β).run.Keeps F Φ Cond i c Q x := by
  have hcont : (tryCatch y f : Handler K V ε β).run = y.run.bind fun
      | .ok a => .ret (.ok a)
      | .error e => (f e).run :=
    congrArg (Program.bind y.run) (funext fun r => by cases r <;> rfl)
  rw [hcont]
  refine Program.keeps_bind (h.mono fun r z hr => ?_)
  cases r with
  | ok a => exact hr
  | error e => exact hr

theorem aloneMeets_readOnly_bind {y : Handler K V ε α} {f : α → Handler K V ε β} {t : Table K V}
    (hy : y.run.ReadOnly) (hok : ∀ a, (f a).run.AloneMeets Cond t) :
    (y >>= f).run.AloneMeets Cond t := by
  obtain ⟨hmeets, htable⟩ := Program.ReadOnly.aloneMeets hy t
  have hrest : (ExceptT.bindCont f (y.run.alone t).1 : Program K V (Except ε β)).AloneMeets Cond
      (y.run.alone t).2 := by
    rw [htable]
    cases (y.run.alone t).1 with
    | ok a => exact hok a
    | error e => trivial
  exact Program.aloneMeets_bind hmeets hrest

theorem aloneMeets_get_bind {e : ε} {k : K} {f : Option (V k) → Handler K V ε β} {t : Table K V}
    (h : (f (t.row k)).run.AloneMeets Cond t) : (get e k >>= f).run.AloneMeets Cond t := h

/-- What only reads may come first. -/
theorem keeps_readOnly_bind {y : Handler K V ε α} {f : α → Handler K V ε β}
    (hy : y.run.ReadOnly) (hok : ∀ a, (f a).run.Keeps F Φ Cond i c Q x)
    (herror : ∀ e, Q (.error e) x) : (y >>= f).run.Keeps F Φ Cond i c Q x := by
  refine keeps_bind (hy.keeps fun r => ?_)
  cases r with
  | ok a => exact hok a
  | error e => exact herror e

theorem keeps_of_bind {y : Except ε α} {f : α → Handler K V ε β}
    (hok : ∀ a, y = .ok a → (f a).run.Keeps F Φ Cond i c Q x)
    (herror : ∀ e, y = .error e → Q (.error e) x) : (of y >>= f).run.Keeps F Φ Cond i c Q x := by
  cases y with
  | ok a => exact hok a rfl
  | error e => exact herror e rfl

theorem keeps_get_bind {e : ε} {k : K} {f : Option (V k) → Handler K V ε β}
    (h : ∀ row, (f row).run.Keeps F Φ Cond i c Q x) (herror : Q (.error e) x) :
    (get e k >>= f).run.Keeps F Φ Cond i c Q x :=
  fun _ _ hg hi => ⟨.same hg hi (h _), fun _ => .same hg hi herror⟩

/-- A read that the call learns from. -/
theorem keeps_get_bind_learn {e : ε} {k : K} {f : Option (V k) → Handler K V ε β}
    (h : ∀ w g, Φ w g → g i = some x →
      Continues Φ (fun y => (f (w.table.row k)).run.Keeps F Φ Cond i c Q y) w g i)
    (herror : Q (.error e) x) : (get e k >>= f).run.Keeps F Φ Cond i c Q x :=
  fun w g hg hi => ⟨h w g hg hi, fun _ => .same hg hi herror⟩

theorem keeps_list_bind_learn {e : ε} {select : K → Bool}
    {f : List ((k : K) × V k) → Handler K V ε β}
    (h : ∀ w g rows, Φ w g → g i = some x → w.table.Answers select rows →
      Continues Φ (fun y => (f rows).run.Keeps F Φ Cond i c Q y) w g i)
    (herror : Q (.error e) x) : (list e select >>= f).run.Keeps F Φ Cond i c Q x :=
  fun w g hg hi => ⟨fun rows => h w g rows hg hi, fun _ => .same hg hi herror⟩

/-- A transaction: what becomes of the call when it is refused, and when it commits. -/
theorem keeps_submit_bind {ops : List (Write K V)} {f : Bool → Handler K V ε β}
    (hrefused : (f false).run.Keeps F Φ Cond i c Q x)
    (hcommit : ∀ w g, Φ w g → g i = some x → w.table.Admits ops →
      Cond (submit ops >>= f).run w.table →
        Continues Φ (fun y => (f true).run.Keeps F Φ Cond i c Q y) (w.commit i c ops) g i ∧
          Continues Φ (fun y => (f false).run.Keeps F Φ Cond i c Q y) (w.commit i c ops) g i) :
    (submit ops >>= f).run.Keeps F Φ Cond i c Q x := by
  intro w g hg hi
  refine ⟨fun _ => .same hg hi hrefused, fun ha hc => ?_⟩
  obtain ⟨hok, hlost⟩ := hcommit w g hg hi ha hc
  exact ⟨hok, fun _ => hlost⟩

/-- A transaction that is raised if it does not commit, where the last value is
as good as any other for a call that has raised. -/
theorem keeps_commit_bind {ops : List (Write K V)} {a : α} {e : ε} {f : α → Handler K V ε β}
    (hraised : ∀ e x, Q (.error e) x)
    (hcommit : ∀ w g, Φ w g → g i = some x → w.table.Admits ops →
      Continues Φ (fun y => (f a).run.Keeps F Φ Cond i c Q y) (w.commit i c ops) g i) :
    ((do if ← submit ops then return a else throw e) >>= f).run.Keeps F Φ Cond i c Q x := by
  intro w g hg hi
  refine ⟨fun _ => .same hg hi (hraised e x), fun ha _ => ?_⟩
  have hok := hcommit w g hg hi ha
  exact ⟨hok, fun _ => hok.imp fun y _ => hraised e y⟩

end Handler

end RowStore
