import Stoa.Store.Log

/-! # What a transaction was decided on

A call that submits a transaction rests it on the rows that it has read. Each of them
was stored at some time, though not necessarily when the transaction commits. -/

namespace RowStore

variable {K : Type} {V : K → Type} {C α β : Type}

/-- The rows that a call has read, the latest first. -/
abbrev Readings (K : Type) (V : K → Type) := List ((k : K) × Option (V k))

namespace Program

/-- Every transaction that the program may submit is in `T` with what has been read
before it; and the program ends in `Q`. -/
def Decides (T : Readings K V → List (Write K V) → Prop) (Q : α → Readings K V → Prop) :
    Program K V α → Readings K V → Prop
  | .ret a, seen => Q a seen
  | .read k next, seen => (∀ row, (next (some row)).Decides T Q (⟨k, row⟩ :: seen)) ∧ (next none).Decides T Q seen
  | .query _ next, seen => ∀ rows, (next rows).Decides T Q seen
  | .transact ops next, seen => T seen ops ∧ ∀ ok, (next ok).Decides T Q seen

variable {T : Readings K V → List (Write K V) → Prop} {Q Q' : α → Readings K V → Prop} {seen : Readings K V}

theorem Decides.mono {p : Program K V α} (h : p.Decides T Q seen) (hQ : ∀ a seen, Q a seen → Q' a seen) :
    p.Decides T Q' seen := by
  induction p generalizing seen with
  | ret a => exact hQ a seen h
  | read k next ih => exact ⟨fun row => ih _ (h.1 row), ih _ h.2⟩
  | query select next ih => exact fun rows => ih rows (h rows)
  | transact ops next ih => exact ⟨h.1, fun ok => ih ok (h.2 ok)⟩

theorem decides_bind {Q : β → Readings K V → Prop} {p : Program K V α} {f : α → Program K V β}
    (h : p.Decides T (fun a seen => (f a).Decides T Q seen) seen) : (p.bind f).Decides T Q seen := by
  induction p generalizing seen with
  | ret a => exact h
  | read k next ih => exact ⟨fun row => ih _ (h.1 row), ih _ h.2⟩
  | query select next ih => exact fun rows => ih rows (h rows)
  | transact ops next ih => exact ⟨h.1, fun ok => ih ok (h.2 ok)⟩

/-- What only reads knows more afterwards. -/
theorem ReadOnly.decides {p : Program K V α} (h : p.ReadOnly) (hQ : ∀ a later, seen ⊆ later → Q a later) :
    p.Decides T Q seen := by
  induction p generalizing seen with
  | ret a => exact hQ a seen (List.Subset.refl _)
  | read k next ih =>
      refine ⟨fun row => ih _ (h _) fun a later hlater => hQ a later ?_, ih _ (h _) hQ⟩
      exact List.Subset.trans (List.subset_cons_self _ _) hlater
  | query select next ih => exact fun rows => ih rows (h rows) hQ
  | transact ops next ih => exact h.elim

end Program

/-! ## Handlers -/

namespace Handler

variable {ε : Type} {T : Readings K V → List (Write K V) → Prop} {Q : Except ε β → Readings K V → Prop}
  {seen : Readings K V}

theorem decides_bind {y : Handler K V ε α} {f : α → Handler K V ε β}
    (h : y.run.Decides T (fun r seen => match r with
      | .ok a => (f a).run.Decides T Q seen
      | .error e => Q (.error e) seen) seen) : (y >>= f).run.Decides T Q seen := by
  refine Program.decides_bind (h.mono fun r seen hr => ?_)
  cases r with
  | ok a => exact hr
  | error e => exact hr

theorem decides_of_bind {y : Except ε α} {f : α → Handler K V ε β}
    (hok : ∀ a, y = .ok a → (f a).run.Decides T Q seen) (herror : ∀ e, Q (.error e) seen) :
    (of y >>= f).run.Decides T Q seen := by
  cases y with
  | ok a => exact hok a rfl
  | error e => exact herror e

theorem decides_get_bind {e : ε} {k : K} {f : Option (V k) → Handler K V ε β}
    (h : ∀ row, (f row).run.Decides T Q (⟨k, row⟩ :: seen)) (herror : ∀ e seen, Q (.error e) seen) :
    (get e k >>= f).run.Decides T Q seen :=
  ⟨h, herror _ _⟩

theorem decides_readOnly_bind {y : Handler K V ε α} {f : α → Handler K V ε β} (hy : y.run.ReadOnly)
    (hok : ∀ a later, seen ⊆ later → (f a).run.Decides T Q later) (herror : ∀ e seen, Q (.error e) seen) :
    (y >>= f).run.Decides T Q seen :=
  decides_bind (hy.decides fun r later hlater => by
    cases r with
    | ok a => exact hok a later hlater
    | error e => exact herror e later)

theorem decides_submit_bind {ops : List (Write K V)} {f : Bool → Handler K V ε β} (hops : T seen ops)
    (hf : ∀ done, (f done).run.Decides T Q seen) : (submit ops >>= f).run.Decides T Q seen :=
  ⟨hops, hf⟩

theorem decides_map {y : Handler K V ε α} {f : α → β} (hy : y.run.Decides T (fun r => Q (r.map f)) seen) :
    (f <$> y).run.Decides T Q seen := by
  have hcont : (f <$> y).run = y.run.bind fun r => .ret (r.map f) :=
    congrArg (Program.bind y.run) (funext fun r => by cases r <;> rfl)
  rw [hcont]
  exact Program.decides_bind hy

end Handler

/-! ## Runs -/

variable [DecidableEq K]

/-- The row was stored at some time of the history. -/
def WasStored (t : Table K V) (history : List (Commit K V C)) (x : (k : K) × Option (V k)) : Prop :=
  ∃ earlier, earlier <:+ history ∧ (tableAfter t earlier).row x.1 = x.2

/-- Every commit is a transaction of its call, decided on rows that were stored, under
a condition on the table that it meets. -/
def Decided (T : C → Readings K V → List (Write K V) → Prop) (G : C → List (Write K V) → Table K V → Prop)
    (t : Table K V) (history : List (Commit K V C)) : Prop :=
  ∀ e older, e :: older <:+ history → e.before = tableAfter t older ∧
    ∃ seen ops, T e.call seen ops ∧ (∀ x ∈ seen, WasStored t older x) ∧ G e.call ops e.before ∧
      e.before.Admits ops ∧ e.after = e.before.apply ops

section

variable {T : C → Readings K V → List (Write K V) → Prop} {G : C → List (Write K V) → Table K V → Prop}
  {t : Table K V} {e : Commit K V C} {history older : List (Commit K V C)}

omit [DecidableEq K] in
theorem WasStored.later {x : (k : K) × Option (V k)} (h : WasStored t older x) (hsuffix : older <:+ history) :
    WasStored t history x := by
  obtain ⟨earlier, hearlier, hrow⟩ := h
  exact ⟨earlier, hearlier.trans hsuffix, hrow⟩

theorem Decided.earlier (h : Decided T G t history) (hsuffix : older <:+ history) : Decided T G t older :=
  fun e rest he => h e rest (he.trans hsuffix)

end

variable {S : Service K V C α} {T : C → Readings K V → List (Write K V) → Prop}
  {G : C → List (Write K V) → Table K V → Prop} {t : Table K V} {s : State K V C α}

/-- What a run shows at any time, and what its calls have read. -/
structure DecidedSound (T : C → Readings K V → List (Write K V) → Prop) (G : C → List (Write K V) → Table K V → Prop)
    (t : Table K V) (w : View K V C) (g : ℕ → Option (Readings K V)) : Prop where
  log : Decided T G t w.history
  table : w.table = tableAfter t w.history
  seen : ∀ i seen, g i = some seen → ∀ x ∈ seen, WasStored t w.history x

theorem DecidedSound.learn {w : View K V C} {g : ℕ → Option (Readings K V)} (h : DecidedSound T G t w g) {i : ℕ}
    {read : Option (Readings K V)} (hread : ∀ seen, read = some seen → ∀ x ∈ seen, WasStored t w.history x) :
    DecidedSound T G t w (Function.update g i read) where
  log := h.log
  table := h.table
  seen j seen hj := by
    by_cases heq : j = i
    · subst heq
      rw [Function.update_self] at hj
      exact hread seen hj
    · rw [Function.update_of_ne heq] at hj
      exact h.seen j seen hj

theorem DecidedSound.commit {w : View K V C} {g : ℕ → Option (Readings K V)} (h : DecidedSound T G t w g) {i : ℕ}
    {c : C} {ops : List (Write K V)} {seen : Readings K V} (hi : g i = some seen) (hops : T c seen ops)
    (hG : G c ops w.table) (hadmits : w.table.Admits ops) : DecidedSound T G t (w.commit i c ops) g where
  log e older hsuffix := by
    rcases List.suffix_cons_iff.mp hsuffix with heq | hsuffix
    · cases heq
      exact ⟨h.table, seen, ops, hops, h.seen i seen hi, hG, hadmits, rfl⟩
    · exact h.log e older hsuffix
  table := rfl
  seen j seen hj x hx := (h.seen j seen hj x hx).later (List.suffix_cons _ _)

theorem Program.Decides.keeps {F : Access K V} {i : ℕ} {c : C} {p : Program K V α} {seen : Readings K V}
    (h : p.Decides (T c) (fun _ _ => True) seen) :
    p.Keeps F (DecidedSound T G t) (Committing G c) i c (fun _ _ => True) seen := by
  induction p generalizing seen with
  | ret a => trivial
  | read k next ih =>
      intro w g hg hi
      refine ⟨⟨⟨k, w.table.row k⟩ :: seen, hg.learn fun read hread x hx => ?_, ih _ (h.1 _)⟩,
        fun _ => .same hg hi (ih _ h.2)⟩
      cases hread
      rcases List.mem_cons.mp hx with rfl | hx
      · exact ⟨w.history, List.suffix_rfl, by rw [← hg.table]⟩
      · exact hg.seen i seen hi x hx
  | query select next ih =>
      exact fun w g hg hi => ⟨fun rows _ => .same hg hi (ih _ (h _)), fun _ => .same hg hi (ih _ (h _))⟩
  | transact ops next ih =>
      intro w g hg hi
      refine ⟨fun _ => .same hg hi (ih _ (h.2 _)), fun hadmits hcond => ?_⟩
      have hnext := hg.commit hi h.1 (hcond ops next rfl) hadmits
      exact ⟨.same hnext hi (ih _ (h.2 _)), fun _ => .same hnext hi (ih _ (h.2 _))⟩

/-- A run in which only the calls write is a log of decided transactions. -/
theorem StepsMeeting.decided (hbody : ∀ c, (S.body c).Decides (T c) (fun _ _ => True) [])
    (hdrift : ∀ t t', S.drift t t' → t' = t) (h : StepsMeeting S (Committing G) (.initial t) s) :
    Decided T G t s.history ∧ s.table = tableAfter t s.history := by
  have hinit : Decided T G t ([] : List (Commit K V C)) :=
    fun e older he => absurd (List.suffix_nil.mp he) (List.cons_ne_nil _ _)
  obtain ⟨g, hg⟩ := h.kept (Φ := DecidedSound T G t) (Q := fun _ _ _ => True) ⟨hinit, rfl, by simp⟩
    (fun w g i hw => hw.learn (by simp)) (fun w g t' hw ht => ⟨hw.log, (hdrift _ _ ht).trans hw.table, hw.seen⟩)
    (fun w g n hw _ => ⟨hw.log, hw.table, hw.seen⟩)
    fun c w g i hw _ _ _ => ⟨[], hw.learn fun seen hseen => by cases hseen; simp, (hbody c).keeps⟩
  exact ⟨hg.holds.log, hg.holds.table⟩

end RowStore
