import Stoa.Store.Program

/-! # Handlers

A program that may raise, written as the code is: one access after another, and
the first that raises ends it. -/

namespace RowStore

variable {K : Type} {V : K → Type} {ε α β : Type}

instance : Monad (Program K V) where
  pure := .ret
  bind := .bind

theorem Program.bind_ret (p : Program K V α) : p.bind .ret = p := by
  induction p with
  | ret a => rfl
  | read k next ih => exact congrArg (Program.read k) (funext ih)
  | query select next ih => exact congrArg (Program.query select) (funext ih)
  | transact ops next ih => exact congrArg (Program.transact ops) (funext ih)

theorem Program.bind_bind {γ : Type} (p : Program K V α) (f : α → Program K V β)
    (g : β → Program K V γ) : (p.bind f).bind g = p.bind fun a => (f a).bind g := by
  induction p with
  | ret a => rfl
  | read k next ih => exact congrArg (Program.read k) (funext ih)
  | query select next ih => exact congrArg (Program.query select) (funext ih)
  | transact ops next ih => exact congrArg (Program.transact ops) (funext ih)

instance : LawfulMonad (Program K V) :=
  LawfulMonad.mk' (Program K V) Program.bind_ret (fun _ _ => rfl) Program.bind_bind

abbrev Handler (K : Type) (V : K → Type) (ε α : Type) := ExceptT ε (Program K V) α

namespace Handler

/-- A value that is already there, or the failure to compute it. -/
def of (x : Except ε α) : Handler K V ε α := ExceptT.mk (.ret x)

/-- Read one row. -/
def get (failure : ε) (k : K) : Handler K V ε (Option (V k)) :=
  ExceptT.mk (.read k fun
    | none => .ret (.error failure)
    | some row => .ret (.ok row))

/-- Read all rows that are selected. -/
def list (failure : ε) (select : K → Bool) : Handler K V ε (List ((k : K) × V k)) :=
  ExceptT.mk (.query select fun
    | none => .ret (.error failure)
    | some rows => .ret (.ok rows))

/-- Submit a transaction. It is `false` when it raised. -/
def submit (ops : List (Write K V)) : Handler K V ε Bool :=
  ExceptT.mk (.transact ops fun done => .ret (.ok done))

theorem readOnly_bind {x : Handler K V ε α} {f : α → Handler K V ε β} (hx : x.run.ReadOnly)
    (hf : ∀ a, (f a).run.ReadOnly) : (x >>= f).run.ReadOnly := by
  refine Program.ReadOnly.bind hx fun r => ?_
  cases r with
  | ok a => exact hf a
  | error e => trivial

theorem readOnly_of {x : Except ε α} : (of x : Handler K V ε α).run.ReadOnly := True.intro

theorem readOnly_pure {a : α} : (pure a : Handler K V ε α).run.ReadOnly := True.intro

theorem readOnly_get {e : ε} {k : K} : (get e k : Handler K V ε _).run.ReadOnly := by
  intro row
  cases row <;> trivial

theorem readOnly_list {e : ε} {select : K → Bool} : (list e select : Handler K V ε _).run.ReadOnly := by
  intro rows
  cases rows <;> trivial

section

variable [DecidableEq K] {F : Faults} {I : Interference K V} {G : Table K V → Table K V → Prop}
  {Q : Post K V (Except ε β)} {own : List (Table K V × Table K V)} {t : Table K V}

/-- What is owed before the rest of a handler: that the rest is safe, or that it
may be raised. -/
def Rest (F : Faults) (I : Interference K V) (G : Table K V → Table K V → Prop)
    (Q : Post K V (Except ε β)) (f : α → Handler K V ε β) : Post K V (Except ε α)
  | .ok a, own, t => (f a).run.Safe F I G Q own t
  | .error e, own, t => Q (.error e) own t

theorem safe_bind {x : Handler K V ε α} {f : α → Handler K V ε β} :
    (x >>= f).run.Safe F I G Q own t ↔ x.run.Safe F I G (Rest F I G Q f) own t := by
  refine (Program.safe_bind x.run _ own t).trans ?_
  have hrest : (fun (r : Except ε α) own t => Program.Safe F I G Q (ExceptT.bindCont f r) own t) =
      Rest F I G Q f := by
    funext r
    cases r <;> rfl
  exact iff_of_eq (congrArg (fun R => Program.Safe F I G R x.run own t) hrest)

theorem safe_of_bind {x : Except ε α} {f : α → Handler K V ε β}
    (hok : ∀ a, x = .ok a → (f a).run.Safe F I G Q own t)
    (herror : ∀ e, x = .error e → Q (.error e) own t) :
    (of x >>= f).run.Safe F I G Q own t := by
  refine safe_bind.mpr ?_
  cases x with
  | ok a => exact hok a rfl
  | error e => exact herror e rfl

theorem safe_readOnly_bind {x : Handler K V ε α} {f : α → Handler K V ε β} (hx : x.run.ReadOnly)
    (hok : ∀ a u, I.Rely t u → (f a).run.Safe F I G Q own u)
    (herror : ∀ e u, I.Rely t u → Q (.error e) own u) : (x >>= f).run.Safe F I G Q own t := by
  refine safe_bind.mpr (hx.safe_of fun r u hr => ?_)
  cases r with
  | ok a => exact hok a u hr
  | error e => exact herror e u hr

theorem safe_get_bind {e : ε} {k : K} {f : Option (V k) → Handler K V ε β}
    (h : ∀ u, I.Rely t u → I.Inv u → (f (u.row k)).run.Safe F I G Q own u ∧ Q (.error e) own u) :
    (get e k >>= f).run.Safe F I G Q own t := by
  refine safe_bind.mpr fun u hr hi => ?_
  exact ⟨(h u hr hi).1, fun _ => (h u hr hi).2⟩

theorem safe_list_bind {e : ε} {select : K → Bool}
    {f : List ((k : K) × V k) → Handler K V ε β}
    (h : ∀ u, I.Rely t u → I.Inv u →
      (∀ rows, u.Answers select rows → (f rows).run.Safe F I G Q own u) ∧ Q (.error e) own u) :
    (list e select >>= f).run.Safe F I G Q own t := by
  refine safe_bind.mpr fun u hr hi => ?_
  exact ⟨(h u hr hi).1, fun _ => (h u hr hi).2⟩

theorem safe_submit_bind {ops : List (Write K V)} {f : Bool → Handler K V ε β}
    (hrefused : ∀ u, I.Rely t u → I.Inv u → (f false).run.Safe F I G Q own u)
    (hcommit : ∀ u, I.Rely t u → I.Inv u → u.Admits ops → G u (u.apply ops) ∧
      (f true).run.Safe F I G Q ((u, u.apply ops) :: own) (u.apply ops) ∧
      (f false).run.Safe F I G Q ((u, u.apply ops) :: own) (u.apply ops)) :
    (submit ops >>= f).run.Safe F I G Q own t := by
  refine safe_bind.mpr (Program.safe_transact ?_ ?_)
  · exact hrefused
  · exact hcommit

/-- The same where a transaction fails by its conditions alone. -/
theorem safe_submit_bind_exact {ops : List (Write K V)} {f : Bool → Handler K V ε β}
    (hF : ¬ F.writeRefused ∧ ¬ F.responseLost)
    (hrefused : ∀ u, I.Rely t u → I.Inv u → ¬ u.Admits ops → (f false).run.Safe F I G Q own u)
    (hcommit : ∀ u, I.Rely t u → I.Inv u → u.Admits ops → G u (u.apply ops) ∧
      (f true).run.Safe F I G Q ((u, u.apply ops) :: own) (u.apply ops)) :
    (submit ops >>= f).run.Safe F I G Q own t := by
  refine safe_bind.mpr fun u hr hi => ⟨fun h => hrefused u hr hi (h.resolve_left hF.1), fun ha => ?_⟩
  obtain ⟨hmove, hdone⟩ := hcommit u hr hi ha
  exact ⟨hmove, hdone, fun hlost => absurd hlost hF.2⟩

end

end Handler

end RowStore
