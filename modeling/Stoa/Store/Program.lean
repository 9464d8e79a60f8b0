import Stoa.Store.Table

/-! # Programs over a table, and their safety under interference

A call of a service reads rows one at a time and now and then submits a
transaction; between any two of its accesses other calls may commit. Safety is a
rely-guarantee condition: what every commit of the program does to the table,
and what holds when it returns, whatever the others did in between. -/

namespace RowStore

/-- A call in progress. A read yields `none` when it raised; a transaction
yields `false` when it raised, whether or not it was committed. -/
inductive Program (K : Type) (V : K → Type) (α : Type) where
  | ret (result : α)
  | read (key : K) (next : Option (Option (V key)) → Program K V α)
  | query (select : K → Bool) (next : Option (List ((k : K) × V k)) → Program K V α)
  | transact (ops : List (Write K V)) (next : Bool → Program K V α)

/-- The ways in which the table may fail a caller. -/
structure Faults where
  readRaises : Prop
  writeRefused : Prop
  responseLost : Prop

/-- Every read answers; transactions may fail, and may commit and then raise. -/
def Faults.strongReads : Faults := ⟨False, True, True⟩

/-- A fault model that allows nothing beyond another one. -/
structure Faults.Within (F G : Faults) : Prop where
  readRaises : F.readRaises → G.readRaises
  writeRefused : F.writeRefused → G.writeRefused
  responseLost : F.responseLost → G.responseLost

/-- The answer of a query: every stored row that is selected, in some order. -/
def Table.Answers {K : Type} {V : K → Type} (t : Table K V) (select : K → Bool)
    (rows : List ((k : K) × V k)) : Prop :=
  rows.Perm (t.rows select)

theorem Table.Answers.mem_iff {K : Type} {V : K → Type} {t : Table K V}
    {select : K → Bool} {rows : List ((k : K) × V k)} (h : t.Answers select rows)
    {x : (k : K) × V k} : x ∈ rows ↔ select x.1 = true ∧ t.row x.1 = some x.2 :=
  (List.Perm.mem_iff h).trans mem_rows

variable {K : Type} {V : K → Type} {α β : Type}

namespace Program

def bind : Program K V α → (α → Program K V β) → Program K V β
  | ret a, f => f a
  | read k next, f => read k fun r => (next r).bind f
  | query select next, f => query select fun r => (next r).bind f
  | transact ops next, f => transact ops fun ok => (next ok).bind f

/-- Run `attempt` until it does not lose a race, at most `attempts` times.
An attempt that lost a race answers `none`. -/
def retry (attempt : Program K V (Option α)) (exhausted : α) : ℕ → Program K V α
  | 0 => ret exhausted
  | n + 1 => attempt.bind fun
    | some a => ret a
    | none => retry attempt exhausted n

end Program

/-- The rely of a call: an invariant of the table, and a preorder that every
change made by anybody else stays inside. -/
structure Interference (K : Type) (V : K → Type) where
  Inv : Table K V → Prop
  Rely : Table K V → Table K V → Prop
  refl : ∀ t, Rely t t
  trans : ∀ {s t u}, Rely s t → Rely t u → Rely s u

/-- What was stored under a key, at the latest now. -/
def Interference.Seen (I : Interference K V) (k : K) (item : Option (V k)) (t : Table K V) : Prop :=
  ∃ u, I.Inv u ∧ u.row k = item ∧ I.Rely u t

theorem Interference.Seen.found {I : Interference K V} {k : K} {t : Table K V} (h : I.Inv t) :
    I.Seen k (t.row k) t :=
  ⟨t, h, rfl, I.refl t⟩

theorem Interference.Seen.rely {I : Interference K V} {k : K} {item : Option (V k)}
    {t u : Table K V} (h : I.Seen k item t) (hr : I.Rely t u) : I.Seen k item u := by
  obtain ⟨v, hinv, hrow, hv⟩ := h
  exact ⟨v, hinv, hrow, I.trans hv hr⟩

/-- What is known when a call returns: its result, the commits it made (latest
first, each as the tables before and after) and the table at that moment. -/
abbrev Post (K : Type) (V : K → Type) (α : Type) :=
  α → List (Table K V × Table K V) → Table K V → Prop

/-- What an attempt owes: the postcondition if it answers, and `J` if it lost a race. -/
def Post.orLost (Q : Post K V α) (J : List (Table K V × Table K V) → Table K V → Prop) :
    Post K V (Option α)
  | some a, own, t => Q a own t
  | none, own, t => J own t

variable [DecidableEq K]

/-- `p` is safe at table `t` after the commits `own`: every commit it makes is in
the guarantee `G`, and it returns only where `Q` holds. -/
def Program.Safe (F : Faults) (I : Interference K V) (G : Table K V → Table K V → Prop)
    (Q : Post K V α) : Program K V α → List (Table K V × Table K V) → Table K V → Prop
  | .ret a, own, t => Q a own t
  | .read k next, own, t => ∀ t', I.Rely t t' → I.Inv t' →
      (next (some (t'.row k))).Safe F I G Q own t' ∧
        (F.readRaises → (next none).Safe F I G Q own t')
  | .query select next, own, t => ∀ t', I.Rely t t' → I.Inv t' →
      (∀ rows, t'.Answers select rows → (next (some rows)).Safe F I G Q own t') ∧
        (F.readRaises → (next none).Safe F I G Q own t')
  | .transact ops next, own, t => ∀ t', I.Rely t t' → I.Inv t' →
      (F.writeRefused ∨ ¬ t'.Admits ops → (next false).Safe F I G Q own t') ∧
        (t'.Admits ops → G t' (t'.apply ops) ∧
          (next true).Safe F I G Q ((t', t'.apply ops) :: own) (t'.apply ops) ∧
          (F.responseLost →
            (next false).Safe F I G Q ((t', t'.apply ops) :: own) (t'.apply ops)))

namespace Program

variable {F : Faults} {I : Interference K V} {G : Table K V → Table K V → Prop}
  {Q : Post K V β}

theorem safe_ret {Q : Post K V α} {a : α} {own : List (Table K V × Table K V)}
    {t : Table K V} : (ret a).Safe F I G Q own t ↔ Q a own t := Iff.rfl

theorem safe_read {Q : Post K V α} {k : K} {next : Option (Option (V k)) → Program K V α}
    {own : List (Table K V × Table K V)} {t : Table K V}
    (h : ∀ t', I.Rely t t' → I.Inv t' → (next (some (t'.row k))).Safe F I G Q own t' ∧
      (F.readRaises → (next none).Safe F I G Q own t')) :
    (read k next).Safe F I G Q own t := h

/-- A transaction that cannot commit now may still commit later; what it does
then is in the guarantee. -/
theorem safe_transact {Q : Post K V α} {ops : List (Write K V)} {next : Bool → Program K V α}
    {own : List (Table K V × Table K V)} {t : Table K V}
    (hrefused : ∀ t', I.Rely t t' → I.Inv t' → (next false).Safe F I G Q own t')
    (hcommit : ∀ t', I.Rely t t' → I.Inv t' → t'.Admits ops → G t' (t'.apply ops) ∧
      (next true).Safe F I G Q ((t', t'.apply ops) :: own) (t'.apply ops) ∧
      (next false).Safe F I G Q ((t', t'.apply ops) :: own) (t'.apply ops)) :
    (transact ops next).Safe F I G Q own t := by
  intro t' hr hi
  refine ⟨fun _ => hrefused t' hr hi, fun ha => ?_⟩
  obtain ⟨hg, hok, hlost⟩ := hcommit t' hr hi ha
  exact ⟨hg, hok, fun _ => hlost⟩

/-- Safety composes along `bind`. -/
theorem safe_bind (p : Program K V α) (f : α → Program K V β)
    (own : List (Table K V × Table K V)) (t : Table K V) :
    (p.bind f).Safe F I G Q own t ↔
      p.Safe F I G (fun a own t => (f a).Safe F I G Q own t) own t := by
  induction p generalizing own t with
  | ret a => rfl
  | read k next ih => simp only [bind, Safe, ih]
  | query select next ih => simp only [bind, Safe, ih]
  | transact ops next ih => simp only [bind, Safe, ih]

/-- A weaker guarantee and a weaker postcondition are safe as well. -/
theorem Safe.mono {Q Q' : Post K V α} {G' : Table K V → Table K V → Prop}
    {p : Program K V α} {own : List (Table K V × Table K V)} {t : Table K V}
    (h : p.Safe F I G Q own t) (hG : ∀ t t', I.Inv t → G t t' → G' t t')
    (hQ : ∀ a own t, Q a own t → Q' a own t) : p.Safe F I G' Q' own t := by
  induction p generalizing own t with
  | ret a => exact hQ a own t h
  | read k next ih =>
      intro t' hr hi
      exact ⟨ih _ (h t' hr hi).1, fun hf => ih _ ((h t' hr hi).2 hf)⟩
  | query select next ih =>
      intro t' hr hi
      exact ⟨fun rows ha => ih _ ((h t' hr hi).1 rows ha), fun hf => ih _ ((h t' hr hi).2 hf)⟩
  | transact ops next ih =>
      intro t' hr hi
      refine ⟨fun hn => ih _ ((h t' hr hi).1 hn), fun ha => ?_⟩
      obtain ⟨hg, hok, hlost⟩ := (h t' hr hi).2 ha
      exact ⟨hG _ _ hi hg, ih _ hok, fun hl => ih _ (hlost hl)⟩

/-- Earlier commits of the same call do not disturb what follows. -/
theorem Safe.frame {Q : Post K V α} {p : Program K V α}
    {own : List (Table K V × Table K V)} {t : Table K V}
    (base : List (Table K V × Table K V)) (h : p.Safe F I G Q own t) :
    p.Safe F I G (fun a all t => ∃ new, all = new ++ base ∧ Q a new t) (own ++ base) t := by
  induction p generalizing own t with
  | ret a => exact ⟨own, rfl, h⟩
  | read k next ih =>
      intro t' hr hi
      exact ⟨ih _ (h t' hr hi).1, fun hf => ih _ ((h t' hr hi).2 hf)⟩
  | query select next ih =>
      intro t' hr hi
      exact ⟨fun rows ha => ih _ ((h t' hr hi).1 rows ha), fun hf => ih _ ((h t' hr hi).2 hf)⟩
  | transact ops next ih =>
      intro t' hr hi
      refine ⟨fun hn => ih _ ((h t' hr hi).1 hn), fun ha => ?_⟩
      obtain ⟨hg, hok, hlost⟩ := (h t' hr hi).2 ha
      exact ⟨hg, ih _ hok, fun hl => ih _ (hlost hl)⟩

/-- A program that commits nothing. -/
def ReadOnly : Program K V α → Prop
  | ret _ => True
  | read _ next => ∀ row, (next row).ReadOnly
  | query _ next => ∀ rows, (next rows).ReadOnly
  | transact _ _ => False

omit [DecidableEq K] in
theorem ReadOnly.bind {p : Program K V α} {f : α → Program K V β} (hp : p.ReadOnly)
    (hf : ∀ a, (f a).ReadOnly) : (p.bind f).ReadOnly := by
  induction p with
  | ret a => exact hf a
  | read k next ih => exact fun row => ih row (hp row)
  | query select next ih => exact fun rows => ih rows (hp rows)
  | transact ops next => exact hp.elim

/-- A program that commits nothing only lets time pass. -/
theorem ReadOnly.safe_of {Q : Post K V α} {p : Program K V α} (h : p.ReadOnly)
    {own : List (Table K V × Table K V)} {t : Table K V} (hQ : ∀ a u, I.Rely t u → Q a own u) :
    p.Safe F I G Q own t := by
  induction p generalizing t with
  | ret a => exact hQ a t (I.refl t)
  | read k next ih =>
      intro u hr _
      have hlater : ∀ a v, I.Rely u v → Q a own v := fun a v hv => hQ a v (I.trans hr hv)
      exact ⟨ih _ (h _) hlater, fun _ => ih _ (h _) hlater⟩
  | query select next ih =>
      intro u hr _
      have hlater : ∀ a v, I.Rely u v → Q a own v := fun a v hv => hQ a v (I.trans hr hv)
      exact ⟨fun _ _ => ih _ (h _) hlater, fun _ => ih _ (h _) hlater⟩
  | transact ops next => exact h.elim

/-- Every program is safe where nothing is asked of it. -/
theorem safe_of_forall {Q : Post K V α} (hG : ∀ t t', G t t') (hQ : ∀ a own t, Q a own t) (p : Program K V α)
    (own : List (Table K V × Table K V)) (t : Table K V) : p.Safe F I G Q own t := by
  induction p generalizing own t with
  | ret a => exact hQ a own t
  | read k next ih => exact fun u _ _ => ⟨ih _ own u, fun _ => ih _ own u⟩
  | query select next ih => exact fun u _ _ => ⟨fun _ _ => ih _ own u, fun _ => ih _ own u⟩
  | transact ops next ih => exact fun u _ _ => ⟨fun _ => ih _ own u, fun _ => ⟨hG _ _, ih _ _ _, fun _ => ih _ _ _⟩⟩

/-- A program that commits nothing is safe, where nothing is said of its result. -/
theorem ReadOnly.safe {p : Program K V α} (h : p.ReadOnly)
    {own : List (Table K V × Table K V)} {t : Table K V} :
    p.Safe F I G (fun _ _ _ => True) own t :=
  h.safe_of fun _ _ _ => trivial

/-- Interference before the next access does not matter. A program that has
already returned is not affected, so this needs a stable postcondition. -/
theorem Safe.rely {Q : Post K V α} {p : Program K V α}
    {own : List (Table K V × Table K V)} {t u : Table K V}
    (hQ : ∀ a, p = ret a → Q a own t → Q a own u)
    (h : p.Safe F I G Q own t) (hr : I.Rely t u) : p.Safe F I G Q own u := by
  cases p with
  | ret a => exact hQ a rfl h
  | read k next => exact fun t' hr' hi => h t' (I.trans hr hr') hi
  | query select next => exact fun t' hr' hi => h t' (I.trans hr hr') hi
  | transact ops next => exact fun t' hr' hi => h t' (I.trans hr hr') hi

/-- The rule for retried attempts: `J` is what a lost race leaves behind. -/
theorem safe_retry {Q : Post K V α} (J : List (Table K V × Table K V) → Table K V → Prop)
    {attempt : Program K V (Option α)} {exhausted : α}
    (hattempt : ∀ own t, J own t → attempt.Safe F I G (Q.orLost J) own t)
    (hexhausted : ∀ own t, J own t → Q exhausted own t) :
    ∀ (n : ℕ) (own : List (Table K V × Table K V)) (t : Table K V), J own t →
      (retry attempt exhausted n).Safe F I G Q own t := by
  intro n
  induction n with
  | zero => exact hexhausted
  | succ n ih =>
      intro own t hJ
      rw [retry, safe_bind]
      apply (hattempt own t hJ).mono (fun _ _ _ h => h)
      intro a own t h
      cases a with
      | some a => exact h
      | none => exact ih own t h

end Program

end RowStore
