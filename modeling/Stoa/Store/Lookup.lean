import Stoa.Store.Program

/-! # Lookups

A program that only reads is a type of its own: it cannot commit, so its caller
need not look inside it. It may be written against a part of the table. -/

namespace RowStore

inductive Lookup (K : Type) (V : K → Type) (α : Type) where
  | ret (result : α)
  | read (key : K) (next : Option (Option (V key)) → Lookup K V α)
  | query (select : K → Bool) (next : Option (List ((k : K) × V k)) → Lookup K V α)

/-- A part of a table, as a table of its own. -/
structure Part (K : Type) (V : K → Type) (L : Type) (W : L → Type) where
  key : K → L
  row : (k : K) → W (key k) → V k
  /-- The row of the part that a row of the table is, if it is one. -/
  restrict : (l : L) → W l → Option ((k : K) × V k)
  covers : L → Option K

variable {K L : Type} {V : K → Type} {W : L → Type} {α β : Type}

namespace Lookup

def bind : Lookup K V α → (α → Lookup K V β) → Lookup K V β
  | ret a, f => f a
  | read k next, f => read k fun r => (next r).bind f
  | query select next, f => query select fun r => (next r).bind f

instance : Monad (Lookup K V) where
  pure := ret
  bind := bind

/-- The program that does the lookup in a part of the table, and goes on. -/
def run (P : Part K V L W) : Lookup K V α → (α → Program L W β) → Program L W β
  | ret a, f => f a
  | read k next, f => .read (P.key k) fun r => (next (r.map (Option.map (P.row k)))).run P f
  | query select next, f => .query (fun l => (P.covers l).any select) fun rows =>
      (next (rows.map (List.filterMap fun x => P.restrict x.1 x.2))).run P f

/-- Every result of the lookup is in `P`, whatever the table answers. -/
def Yields (P : α → Prop) : Lookup K V α → Prop
  | ret a => P a
  | read _ next => ∀ r, (next r).Yields P
  | query _ next => ∀ rows, (next rows).Yields P

theorem Yields.bind {P : α → Prop} {Q : β → Prop} {l : Lookup K V α} {f : α → Lookup K V β}
    (h : l.Yields P) (hf : ∀ a, P a → (f a).Yields Q) : (l.bind f).Yields Q := by
  induction l with
  | ret a => exact hf a h
  | read k next ih => exact fun r => ih r (h r)
  | query select next ih => exact fun rows => ih rows (h rows)

theorem Yields.imp {P Q : α → Prop} {l : Lookup K V α} (h : l.Yields P) (hPQ : ∀ a, P a → Q a) :
    l.Yields Q := by
  induction l with
  | ret a => exact hPQ a h
  | read k next ih => exact fun r => ih r (h r)
  | query select next ih => exact fun rows => ih rows (h rows)

theorem yields_true (l : Lookup K V α) : l.Yields fun _ => True := by
  induction l with
  | ret a => trivial
  | read k next ih => exact ih
  | query select next ih => exact ih

variable [DecidableEq L] {F : Faults} {I : Interference L W}
  {G : Table L W → Table L W → Prop} {Q : Post L W β}

/-- A lookup is safe before a program that is safe whatever may be found. -/
theorem Yields.safe_run {R : α → Prop} {l : Lookup K V α} (hl : l.Yields R)
    (P : Part K V L W) (f : α → Program L W β)
    {own : List (Table L W × Table L W)} {t : Table L W}
    (h : ∀ a u, R a → I.Rely t u → (f a).Safe F I G Q own u) :
    (l.run P f).Safe F I G Q own t := by
  induction l generalizing t with
  | ret a => exact h a t hl (I.refl t)
  | read k next ih =>
      intro u hr hi
      exact ⟨ih _ (hl _) fun a v ha hv => h a v ha (I.trans hr hv), fun _ => ih _ (hl _)
        fun a v ha hv => h a v ha (I.trans hr hv)⟩
  | query select next ih =>
      intro u hr hi
      exact ⟨fun rows _ => ih _ (hl _) fun a v ha hv => h a v ha (I.trans hr hv), fun _ =>
        ih _ (hl _) fun a v ha hv => h a v ha (I.trans hr hv)⟩

end Lookup

/-- A lookup that may fail: every read that raises ends it. -/
abbrev Fetch (K : Type) (V : K → Type) (ε α : Type) := ExceptT ε (Lookup K V) α

namespace Fetch

variable {ε : Type}

/-- A value that is already there, or the failure to compute it. -/
def of (x : Except ε α) : Fetch K V ε α := ExceptT.mk (.ret x)

/-- Read one row. -/
def get (failure : ε) (k : K) : Fetch K V ε (Option (V k)) :=
  ExceptT.mk (.read k fun
    | none => .ret (.error failure)
    | some row => .ret (.ok row))

/-- Read all rows that are selected. -/
def list (failure : ε) (select : K → Bool) : Fetch K V ε (List ((k : K) × V k)) :=
  ExceptT.mk (.query select fun
    | none => .ret (.error failure)
    | some rows => .ret (.ok rows))

/-- Every value that the lookup finds is in `P`. -/
def Finds (P : α → Prop) (x : Fetch K V ε α) : Prop :=
  Lookup.Yields (fun r : Except ε α => ∀ a, r = .ok a → P a) x.run

theorem finds_pure {P : α → Prop} {a : α} (h : P a) : Finds P (pure a : Fetch K V ε α) := by
  intro b hb
  cases hb
  exact h

theorem finds_of {P : α → Prop} {x : Except ε α} (h : ∀ a, x = .ok a → P a) :
    Finds P (of x : Fetch K V ε α) := h

theorem Finds.bind {R : α → Prop} {P : β → Prop} {x : Fetch K V ε α} {f : α → Fetch K V ε β}
    (hx : Finds R x) (h : ∀ a, R a → Finds P (f a)) : Finds P (x >>= f) := by
  refine Lookup.Yields.bind hx fun r hr => ?_
  cases r with
  | ok a => exact h a (hr a rfl)
  | error e => exact fun b hb => nomatch hb

theorem finds_true (x : Fetch K V ε α) : Finds (fun _ => True) x := by
  refine (Lookup.yields_true x.run).imp fun _ _ _ _ => trivial

theorem finds_bind {P : β → Prop} {x : Fetch K V ε α} {f : α → Fetch K V ε β}
    (h : ∀ a, Finds P (f a)) : Finds P (x >>= f) :=
  (finds_true x).bind fun a _ => h a

end Fetch

end RowStore
