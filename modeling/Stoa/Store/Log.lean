import Stoa.Store.Auxiliary

/-! # The history of a run as a log

Where only the calls write, the table is what the latest commit has left, and every
commit is a transaction that its call may submit, on the table of the commit before. -/

namespace RowStore

variable {K : Type} {V : K → Type} {C α : Type} [DecidableEq K]

/-- What a conditional update of one row does. -/
theorem Table.admits_modify {t : Table K V} {k : K} {change : V k → V k} {condition : V k → Bool}
    (h : t.Admits [.modify k change condition]) : ∃ row, t.row k = some row ∧ condition row = true ∧
      (t.apply [.modify k change condition]).row k = some (change row) ∧
      ∀ j, j ≠ k → (t.apply [.modify k change condition]).row j = t.row j := by
  have hcondition : (t.row k).any condition = true := h.2 _ (List.mem_singleton_self _)
  have hafter : (t.apply [.modify k change condition]).row k = (t.row k).map change :=
    t.row_set_self k _
  cases hrow : t.row k with
  | none =>
      rw [hrow] at hcondition
      cases hcondition
  | some row =>
      rw [hrow] at hcondition hafter
      exact ⟨row, rfl, hcondition, hafter, fun j hj => t.row_set_of_ne _ hj⟩

/-- The table after a history that started with `t`. -/
def tableAfter (t : Table K V) : List (Commit K V C) → Table K V
  | [] => t
  | e :: _ => e.after

/-- Every commit is a transaction of its call, under a condition on the table. -/
def Logged (T : C → List (Write K V) → Table K V → Prop) (t : Table K V) (history : List (Commit K V C)) : Prop :=
  ∀ e older, e :: older <:+ history → e.before = tableAfter t older ∧
    ∃ ops, T e.call ops e.before ∧ e.before.Admits ops ∧ e.after = e.before.apply ops

section

variable {T T' : C → List (Write K V) → Table K V → Prop} {t : Table K V} {e : Commit K V C}
  {history older : List (Commit K V C)}

theorem Logged.nil : Logged T t ([] : List (Commit K V C)) :=
  fun _ _ hsuffix => absurd (List.suffix_nil.mp hsuffix) (List.cons_ne_nil _ _)

theorem Logged.earlier (h : Logged T t history) (hsuffix : older <:+ history) : Logged T t older :=
  fun e rest he => h e rest (he.trans hsuffix)

theorem Logged.imp (h : Logged T t history) (hT : ∀ c ops t, T c ops t → T' c ops t) : Logged T' t history :=
  fun e older he => by
    obtain ⟨hbefore, ops, hops, hadmits, hafter⟩ := h e older he
    exact ⟨hbefore, ops, hT _ _ _ hops, hadmits, hafter⟩

/-- An invariant of the table that every transaction keeps. -/
theorem Logged.invariant {P : Table K V → Prop} (h : Logged T t history) (ht : P t)
    (hP : ∀ c ops u, T c ops u → u.Admits ops → P u → P (u.apply ops)) : P (tableAfter t history) := by
  induction history with
  | nil => exact ht
  | cons e older ih =>
      obtain ⟨hbefore, ops, hops, hadmits, hafter⟩ := h e older List.suffix_rfl
      change P e.after
      rw [hafter]
      refine hP e.call ops e.before hops hadmits ?_
      rw [hbefore]
      exact ih (h.earlier (List.suffix_cons _ _))

/-- An invariant of the table that every commit of the history keeps. -/
theorem Logged.along {P : Table K V → Prop} (h : Logged T t history) (ht : P t)
    (hP : ∀ e ∈ history, P e.before → P e.after) : P (tableAfter t history) := by
  induction history with
  | nil => exact ht
  | cons e older ih =>
      refine hP e (List.mem_cons_self ..) ?_
      rw [(h e older List.suffix_rfl).1]
      exact ih (h.earlier (List.suffix_cons _ _)) fun e he => hP e (List.mem_cons_of_mem _ he)

end

variable {S : Service K V C α} {T : C → List (Write K V) → Prop} {G : C → List (Write K V) → Table K V → Prop}
  {t : Table K V} {s : State K V C α}

/-- The condition `G` on what is committed. -/
abbrev Committing (G : C → List (Write K V) → Table K V → Prop) (c : C) (p : Program K V α) (t : Table K V) : Prop :=
  ∀ ops next, p = .transact ops next → G c ops t

/-- A check of every commit of a call that runs alone. -/
def Program.aloneChecks (check : List (Write K V) → Table K V → Bool) : Program K V α → Table K V → Bool
  | .ret _, _ => true
  | .read k next, t => (next (some (t.row k))).aloneChecks check t
  | .query select next, t => (next (some (t.rows select))).aloneChecks check t
  | .transact ops next, t =>
      if t.Admits ops then check ops t && (next true).aloneChecks check (t.apply ops)
      else (next false).aloneChecks check t

/-- A condition on what is committed can be evaluated for a call that runs alone. -/
theorem Program.aloneMeets_of_checks {check : List (Write K V) → Table K V → Bool} {c : C} {p : Program K V α}
    {t : Table K V} (hcheck : ∀ ops t, t.Admits ops → check ops t = true → G c ops t)
    (h : p.aloneChecks check t = true) : p.AloneMeets (Committing G c) t := by
  induction p generalizing t with
  | ret a => trivial
  | read k next ih => exact ih _ h
  | query select next ih => exact ih _ h
  | transact ops next ih =>
      unfold aloneChecks at h
      refine ⟨fun hadmits => ?_, fun hrefused => ?_⟩
      · rw [if_pos hadmits, Bool.and_eq_true_iff] at h
        refine ⟨fun ops' next' heq => ?_, ih true h.2⟩
        cases heq
        exact hcheck ops t hadmits h.1
      · rw [if_neg hrefused] at h
        exact ih false h

/-- What a log shows at any time. -/
abbrev LogSound (T : C → List (Write K V) → Prop) (G : C → List (Write K V) → Table K V → Prop) (t : Table K V)
    (w : View K V C) (_ : ℕ → Option Unit) : Prop :=
  Logged (fun c ops t => T c ops ∧ G c ops t) t w.history ∧ w.table = tableAfter t w.history

/-- A run in which only the calls write is a log of their transactions. -/
theorem StepsMeeting.logged (hbody : ∀ c, (S.body c).Submits (T c)) (hdrift : ∀ t t', S.drift t t' → t' = t)
    (h : StepsMeeting S (Committing G) (.initial t) s) :
    Logged (fun c ops t => T c ops ∧ G c ops t) t s.history ∧ s.table = tableAfter t s.history := by
  have hstart : ∀ c w g i, LogSound T G t w g → Continues (LogSound T G t)
      (fun y => (S.body c).Keeps S.faults (LogSound T G t) (Committing G c) i c (fun _ _ => True) y) w g i := by
    intro c w g i hw
    refine ⟨(), hw, (hbody c).keeps (fun _ => trivial) fun ops next v g hops hv _ hadmits hcond => ⟨?_, rfl⟩⟩
    intro e older hsuffix
    rcases List.suffix_cons_iff.mp hsuffix with heq | hsuffix
    · cases heq
      exact ⟨hv.2, ops, ⟨hops, hcond ops next rfl⟩, hadmits, rfl⟩
    · exact hv.1 e older hsuffix
  obtain ⟨g, hg⟩ := h.kept (Q := fun _ _ _ => True) ⟨.nil, rfl⟩ (fun _ _ _ hw => hw)
    (fun w _ t' hw ht => ⟨hw.1, (hdrift _ _ ht).trans hw.2⟩) (fun _ _ _ hw _ => hw)
    fun c w g i hw _ _ _ => hstart c w g i hw
  exact hg.holds

omit [DecidableEq K] in
theorem Program.submits_of_forall {T : List (Write K V) → Prop} (hT : ∀ ops, T ops) (p : Program K V α) :
    p.Submits T := by
  induction p with
  | ret a => trivial
  | read k next ih => exact ih
  | query select next ih => exact ih
  | transact ops next ih => exact ⟨hT ops, ih⟩

/-- Where only the calls write, an invariant that every commit keeps holds of the table. -/
theorem Reachable.along {P : Table K V → Prop} (h : Reachable S t s) (hdrift : ∀ t t', S.drift t t' → t' = t)
    (ht : P t) (hP : ∀ e ∈ s.history, P e.before → P e.after) : P s.table := by
  have hmeets : StepsMeeting S (Committing fun _ _ _ => True) (.initial t) s := by
    induction h with
    | refl => exact .refl
    | tail _ hstep ih =>
        refine (ih fun e he => hP e (hstep.history_subset he)).tail ⟨hstep, fun _ _ _ _ _ _ => trivial⟩
  obtain ⟨hlog, htable⟩ := hmeets.logged (T := fun _ _ => True)
    (fun c => Program.submits_of_forall (fun _ => trivial) _) hdrift
  rw [htable]
  exact hlog.along ht hP

end RowStore
