import Stoa.Store.Auxiliary
import Stoa.Store.Owner

/-! # Duties

A commit of a call may begin what only a later commit of the same call finishes.
In between the call owes the rest: while none of its accesses fails, it goes on
to a transaction that finishes what it began. -/

namespace RowStore

variable {K : Type} {V : K → Type} {C α : Type}

/-- What is known of every row that is read, which rows let a call go on, which
commits begin a duty and where it is met. -/
structure Duty (K : Type) (V : K → Type) (C : Type) where
  known : (k : K) → Option (V k) → Prop
  good : (k : K) → Option (V k) → Prop
  arises : Table K V → Table K V → Prop
  met : Table K V → Prop
  /-- What a call may submit. -/
  allowed : C → List (Write K V) → Prop

variable [DecidableEq K]

namespace Program

/-- A program on which a duty rests: from good rows it goes on to meet it. -/
def Owes (D : Duty K V C) : Program K V α → Prop
  | .ret _ => False
  | .read k next => ∀ row, D.good k row → (next (some row)).Owes D
  | .query _ next => ∀ rows, (next (some rows)).Owes D
  | .transact ops _ => ∀ t : Table K V, (∀ k, D.known k (t.row k)) → t.Admits ops → D.met (t.apply ops)

/-- A program of the call `c` that, as long as it reads what is known, submits what
it may, and owes what it begins. -/
def Follows (D : Duty K V C) (c : C) : Program K V α → Prop
  | .ret _ => True
  | .read k next => (∀ row, D.known k row → (next (some row)).Follows D c) ∧ (next none).Follows D c
  | .query _ next => ∀ rows, (next rows).Follows D c
  | .transact ops next => D.allowed c ops ∧
      (∀ t : Table K V, (∀ k, D.known k (t.row k)) → t.Admits ops → D.arises t (t.apply ops) →
        (next true).Owes D) ∧
      ∀ done, (next done).Follows D c

variable {D : Duty K V C} {c : C}

theorem Owes.result? {p : Program K V α} (h : p.Owes D) : p.result? = none := by
  cases p with
  | ret a => exact h.elim
  | _ => rfl

theorem Owes.bind {β : Type} {p : Program K V α} (h : p.Owes D) (f : α → Program K V β) :
    (p.bind f).Owes D := by
  induction p with
  | ret a => exact h.elim
  | read k next ih => exact fun row hrow => ih _ (h row hrow)
  | query select next ih => exact fun rows => ih _ (h rows)
  | transact ops next ih => exact h

theorem Follows.bind {β : Type} {p : Program K V α} {f : α → Program K V β} (hp : p.Follows D c)
    (hf : ∀ a, (f a).Follows D c) : (p.bind f).Follows D c := by
  induction p with
  | ret a => exact hf a
  | read k next ih => exact ⟨fun row hrow => ih _ (hp.1 row hrow), ih _ hp.2⟩
  | query select next ih => exact fun rows => ih _ (hp rows)
  | transact ops next ih =>
      obtain ⟨hallowed, harises, hnext⟩ := hp
      exact ⟨hallowed, fun t hknown ha hbegun => (harises t hknown ha hbegun).bind f,
        fun done => ih _ (hnext done)⟩

/-- What only reads follows every duty. -/
theorem ReadOnly.follows {p : Program K V α} (h : p.ReadOnly) : p.Follows D c := by
  induction p with
  | ret a => trivial
  | read k next ih => exact ⟨fun row _ => ih _ (h _), ih _ (h _)⟩
  | query select next ih => exact fun rows => ih _ (h rows)
  | transact ops next ih => exact h.elim

/-- What submits nothing that begins a duty follows it. -/
theorem Submits.follows {p : Program K V α}
    (h : p.Submits fun ops => D.allowed c ops ∧
      ∀ t : Table K V, (∀ k, D.known k (t.row k)) → t.Admits ops → ¬ D.arises t (t.apply ops)) : p.Follows D c := by
  induction p with
  | ret a => trivial
  | read k next ih => exact ⟨fun row _ => ih _ (h _), ih _ (h _)⟩
  | query select next ih => exact fun rows => ih _ (h rows)
  | transact ops next ih =>
      exact ⟨h.1.1, fun t hknown ha harises => absurd harises (h.1.2 t hknown ha), fun done => ih _ (h.2 done)⟩

end Program

/-- The next access of a call fails in the step. -/
def Fails (D : Duty K V C) (s s' : State K V C α) (i : ℕ) (c : C) : Program K V α → Prop
  | .ret _ => False
  | .read k next => s' = s.resume i c (next none) ∨
      ¬ D.good k (s.table.row k) ∧ s' = s.resume i c (next (some (s.table.row k)))
  | .query _ next => s' = s.resume i c (next none)
  | .transact ops next => s' = s.resume i c (next false) ∨
      s' = (s.commit i c ops).resume i c (next false)

/-- The call has begun what it owes. -/
def Due (D : Duty K V C) (s : State K V C α) (i : ℕ) : Prop :=
  ∃ e ∈ s.history, e.id = i ∧ D.arises e.before e.after

/-- The step starts none but calls that may be made, and fails no call that owes
what is not met yet. -/
def Undisturbed (S : Service K V C α) (D : Duty K V C) (inTime : C → Prop) (s s' : State K V C α) :
    Prop :=
  (∀ c, Starts S s s' c → inTime c) ∧
    ∀ i c p, s.running i = some (c, p) → Due D s' i → ¬ D.met s.table → ¬ Fails D s s' i c p

/-- What makes a duty one of the service. -/
structure Duty.Of (D : Duty K V C) (S : Service K V C α) (inTime : C → Prop) : Prop where
  body : ∀ c, inTime c → (S.body c).Follows D c
  known_commit : ∀ c ops (t : Table K V), (∀ k, D.known k (t.row k)) → D.allowed c ops → t.Admits ops →
    ∀ k, D.known k ((t.apply ops).row k)
  known_drift : ∀ t t' : Table K V, (∀ k, D.known k (t.row k)) → S.drift t t' → ∀ k, D.known k (t'.row k)
  met_commit : ∀ c ops (t : Table K V), D.allowed c ops → t.Admits ops → D.met t → D.met (t.apply ops)
  met_drift : ∀ t t', S.drift t t' → D.met t → D.met t'

/-- What holds in every state of a run that disturbs no duty. -/
structure Dutiful (D : Duty K V C) (s : State K V C α) : Prop where
  known : ∀ k, D.known k (s.table.row k)
  running : ∀ i c p, s.running i = some (c, p) → p.Follows D c
  fresh : ∀ i, s.next ≤ i → s.running i = none
  history : ∀ e ∈ s.history, e.id < s.next ∧ (∀ k, D.known k (e.before.row k)) ∧
    ∃ ops, D.allowed e.call ops ∧ e.before.Admits ops ∧ e.after = e.before.apply ops
  /-- What is begun is met, or the call that began it still owes it. -/
  due : ∀ i, Due D s i → D.met s.table ∨ ∃ c p, s.running i = some (c, p) ∧ p.Owes D

namespace Dutiful

variable {S : Service K V C α} {D : Duty K V C} {inTime : C → Prop} {s s' : State K V C α}
  {i : ℕ} {c : C} {p : Program K V α}

theorem initial {t : Table K V} (h : ∀ k, D.known k (t.row k)) : Dutiful D (.initial t : State K V C α) where
  known := h
  running := by simp [State.initial]
  fresh := by simp [State.initial]
  history := by simp [State.initial]
  due := by simp [State.initial, Due]

/-- A call goes on, and the table stays. -/
theorem resume {q : Program K V α} (h : Dutiful D s) (hi : i < s.next) (hq : q.Follows D c)
    (hdue : Due D s i → D.met s.table ∨ q.Owes D) : Dutiful D (s.resume i c q) where
  known := h.known
  running j d r hj := by
    rcases Owned.running_resume hj with ⟨-, rfl, rfl, -⟩ | ⟨-, hj⟩
    · exact hq
    · exact h.running j d r hj
  fresh j hj := by
    have hne : j ≠ i := fun heq => absurd hi (not_lt.mpr (heq ▸ hj))
    simp only [State.resume, Function.update_of_ne hne]
    exact h.fresh j hj
  history := h.history
  due j hj := by
    by_cases hji : j = i
    · subst hji
      rcases hdue hj with hmet | howes
      · exact .inl hmet
      · exact .inr ⟨c, q, by simp [State.resume, howes.result?], howes⟩
    · rcases h.due j hj with hmet | ⟨d, r, hrun, howes⟩
      · exact .inl hmet
      · exact .inr ⟨d, r, by simpa [State.resume, Function.update_of_ne hji] using hrun, howes⟩

/-- Other code writes. -/
theorem drift (hD : D.Of S inTime) (h : Dutiful D s) {t : Table K V} (ht : S.drift s.table t) :
    Dutiful D { s with table := t } where
  known := hD.known_drift _ _ h.known ht
  running := h.running
  fresh := h.fresh
  history := h.history
  due i hi := (h.due i hi).imp_left (hD.met_drift _ _ ht)

/-- A call commits; whether it owes anything then is left open. -/
theorem commit (hD : D.Of S inTime) (h : Dutiful D s) {ops : List (Write K V)} {q : Program K V α}
    (hi : i < s.next) (hallowed : D.allowed c ops) (ha : s.table.Admits ops) (hq : q.Follows D c)
    (hdue : Due D (s.commit i c ops) i → D.met (s.table.apply ops) ∨ q.Owes D) :
    Dutiful D ((s.commit i c ops).resume i c q) where
  known := hD.known_commit c ops _ h.known hallowed ha
  running j d r hj := by
    rcases Owned.running_resume hj with ⟨-, rfl, rfl, -⟩ | ⟨-, hj⟩
    · exact hq
    · exact h.running j d r hj
  fresh j hj := by
    have hne : j ≠ i := fun heq => absurd hi (not_lt.mpr (heq ▸ hj))
    simp only [State.resume, State.commit, Function.update_of_ne hne]
    exact h.fresh j hj
  history e he := by
    rcases List.mem_cons.mp he with rfl | he
    · exact ⟨hi, h.known, ops, hallowed, ha, rfl⟩
    · exact h.history e he
  due j hj := by
    by_cases hji : j = i
    · subst hji
      rcases hdue hj with hmet | howes
      · exact .inl hmet
      · exact .inr ⟨c, q, by simp [State.resume, howes.result?], howes⟩
    · obtain ⟨e, he, hid, harises⟩ := hj
      have hearlier : e ∈ s.history := by
        rcases List.mem_cons.mp he with rfl | he
        · exact absurd hid.symm hji
        · exact he
      rcases h.due j ⟨e, hearlier, hid, harises⟩ with hmet | ⟨d, r, hrun, howes⟩
      · exact .inl (hD.met_commit c ops _ hallowed ha hmet)
      · exact .inr ⟨d, r, by simpa [State.resume, State.commit, Function.update_of_ne hji] using hrun, howes⟩

/-- What a running call that owes its duty is about to do. -/
theorem owes_of_due (h : Dutiful D s) (hrun : s.running i = some (c, p)) (hdue : Due D s i) :
    D.met s.table ∨ p.Owes D := by
  rcases h.due i hdue with hmet | ⟨d, r, hr, howes⟩
  · exact .inl hmet
  · cases hr.symm.trans hrun
    exact .inr howes

/-- The step lemma. -/
theorem step (hD : D.Of S inTime) (h : Dutiful D s) (hstep : Step S s s')
    (hP : Undisturbed S D inTime s s') : Dutiful D s' := by
  have hlt : ∀ {i c p}, s.running i = some (c, p) → i < s.next := fun {i c p} hi => by
    by_contra hle
    cases (h.fresh i (not_lt.mp hle)).symm.trans hi
  cases hstep with
  | start c hc =>
      have hopen : Dutiful D s.open_ :=
        ⟨h.known, h.running, fun i hi => h.fresh i (Nat.le_of_succ_le hi),
          fun e he => ⟨Nat.lt_succ_of_lt (h.history e he).1, (h.history e he).2⟩, h.due⟩
      refine hopen.resume (Nat.lt_succ_self _) (hD.body c (hP.1 c rfl)) ?_
      rintro ⟨e, he, hid, -⟩
      exact absurd (h.history e he).1 (hid ▸ lt_irrefl _)
  | read i c k next hrun =>
      have hfollows := h.running i c _ hrun
      refine h.resume (hlt hrun) (hfollows.1 _ (h.known k)) fun hdue => ?_
      rcases h.owes_of_due hrun hdue with hmet | howes
      · exact .inl hmet
      · by_cases hmet : D.met s.table
        · exact .inl hmet
        · have hgood : D.good k (s.table.row k) := by
            by_contra hbad
            exact hP.2 i c _ hrun hdue hmet (.inr ⟨hbad, rfl⟩)
          exact .inr (howes _ hgood)
  | readRaises i c k next hrun hf =>
      refine h.resume (hlt hrun) (h.running i c _ hrun).2 fun hdue => ?_
      by_cases hmet : D.met s.table
      · exact .inl hmet
      · exact absurd (.inl rfl) (hP.2 i c _ hrun hdue hmet)
  | query i c select next rows hrun ha =>
      refine h.resume (hlt hrun) (h.running i c _ hrun _) fun hdue => ?_
      exact (h.owes_of_due hrun hdue).imp_right fun howes => howes rows
  | queryRaises i c select next hrun hf =>
      refine h.resume (hlt hrun) (h.running i c _ hrun _) fun hdue => ?_
      by_cases hmet : D.met s.table
      · exact .inl hmet
      · exact absurd rfl (hP.2 i c _ hrun hdue hmet)
  | refused i c ops next hrun hf =>
      refine h.resume (hlt hrun) ((h.running i c _ hrun).2.2 _) fun hdue => ?_
      by_cases hmet : D.met s.table
      · exact .inl hmet
      · exact absurd (.inl rfl) (hP.2 i c _ hrun hdue hmet)
  | committed i c ops next hrun ha =>
      obtain ⟨hallowed, harises, hnext⟩ := h.running i c _ hrun
      refine h.commit hD (hlt hrun) hallowed ha (hnext true) ?_
      rintro ⟨e, he, hid, he'⟩
      rcases List.mem_cons.mp he with rfl | he
      · exact .inr (harises _ h.known ha he')
      · rcases h.owes_of_due hrun ⟨e, he, hid, he'⟩ with hmet | howes
        · exact .inl (hD.met_commit c ops _ hallowed ha hmet)
        · exact .inl (howes _ h.known ha)
  | responseLost i c ops next hrun ha hf =>
      obtain ⟨hallowed, harises, hnext⟩ := h.running i c _ hrun
      refine h.commit hD (hlt hrun) hallowed ha (hnext false) fun hdue => ?_
      by_cases hmet : D.met s.table
      · exact .inl (hD.met_commit c ops _ hallowed ha hmet)
      · exact absurd (.inr rfl) (hP.2 i c _ hrun hdue hmet)
  | drift t ht => exact h.drift hD ht
  | tick n hn => exact ⟨h.known, h.running, h.fresh, h.history, h.due⟩

end Dutiful

namespace Handler

variable {ε β : Type} {D : Duty K V C} {c : C} {e : ε}

end Handler

end RowStore
