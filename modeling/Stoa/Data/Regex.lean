import Stoa.Data.PyText
import Mathlib.Logic.Relation
import Mathlib.Data.List.Forall2

/-! # Regular expressions

A backtracking matcher tries the ways to match in a fixed order and takes the first one
that goes on to succeed. The matcher here lists all of them in that order. -/

open PyText

inductive Regex where
  | empty
  /-- One code point of a set. -/
  | one (p : ℕ → Bool)
  | seq (r s : Regex)
  | alt (r s : Regex)
  /-- As often as possible. -/
  | star (r : Regex)
  /-- Nothing, where the expression does not match. -/
  | notAhead (r : Regex)
  /-- Nothing, where a word begins or ends. -/
  | boundary (isWord : ℕ → Bool)
  /-- The first group. -/
  | group (r : Regex)

namespace Regex

/-- A place in a text: what stands before it, last first, what stands after it, and what the
group has matched. -/
structure Cursor where
  passed : Str
  rest : Str
  group : Str := []

/-- The first place of a text. -/
def Cursor.start (s : Str) : Cursor := ⟨[], s, []⟩

/-- As often as possible, where each time something is matched. -/
def again (step : Cursor → List Cursor) : ℕ → Cursor → List Cursor
  | 0, c => [c]
  | n + 1, c => ((step c).filter fun d => d.rest.length < c.rest.length).flatMap (again step n) ++ [c]

/-- What stands between two places of a text. -/
def Cursor.between (c d : Cursor) : Str := (d.passed.take (d.passed.length - c.passed.length)).reverse

/-- Where a match from here may end, in the order in which it is tried. -/
def ends : Regex → Cursor → List Cursor
  | empty, c => [c]
  | one p, c =>
    match c.rest with
    | x :: rest => if p x then [⟨x :: c.passed, rest, c.group⟩] else []
    | [] => []
  | seq r s, c => (ends r c).flatMap (ends s)
  | alt r s, c => ends r c ++ ends s c
  | star r, c => again (ends r) c.rest.length c
  | notAhead r, c => if (ends r c).isEmpty then [c] else []
  | boundary isWord, c => if c.passed.head?.any isWord = c.rest.head?.any isWord then [] else [c]
  | group r, c => (ends r c).map fun d => { d with group := c.between d }

/-! ## Derived expressions -/

def opt (r : Regex) : Regex := alt r empty

def plus (r : Regex) : Regex := seq r (star r)

/-- A text, code point by code point. -/
def literal (same : ℕ → ℕ → Bool) : Str → Regex
  | [] => empty
  | [c] => one (same c)
  | c :: s => seq (one (same c)) (literal same s)

/-- The first of some expressions that matches. -/
def oneOf : List Regex → Regex
  | [] => notAhead empty
  | [r] => r
  | r :: rest => alt r (oneOf rest)

/-- Some expressions, one after the other. -/
def all : List Regex → Regex
  | [] => empty
  | [r] => r
  | r :: rest => seq r (all rest)

/-! ## Searching -/

/-- The match from a place of the text, where it matches something. -/
def matchAt (r : Regex) (c : Cursor) : Option Cursor :=
  (ends r c).head?.filter fun d => d.rest.length < c.rest.length

/-- What replaces every match, from a place on. -/
def subFrom (r : Regex) (replacement : Str) : ℕ → Cursor → Str
  | 0, c => c.rest
  | n + 1, c =>
    match r.matchAt c, c.rest with
    | some d, _ => replacement ++ subFrom r replacement n d
    | none, x :: rest => x :: subFrom r replacement n ⟨x :: c.passed, rest, []⟩
    | none, [] => []

/-- `re.sub`, for an expression that does not match the empty text. -/
def sub (r : Regex) (replacement s : Str) : Str := subFrom r replacement s.length (.start s)

/-- The matches from a place on: the group, and where each of them ends. -/
def findFrom (r : Regex) : ℕ → Cursor → List (Cursor × Cursor)
  | 0, _ => []
  | n + 1, c =>
    match r.matchAt c, c.rest with
    | some d, _ => (c, d) :: findFrom r n { d with group := [] }
    | none, x :: rest => findFrom r n ⟨x :: c.passed, rest, []⟩
    | none, [] => []

/-- `re.finditer`, for an expression that does not match the empty text: from where to
where each match goes. -/
def findIter (r : Regex) (s : Str) : List (Cursor × Cursor) := findFrom r s.length (.start s)

/-! ## Matches are part of the text -/

theorem again_suffix {step : Cursor → List Cursor} (hstep : ∀ c, ∀ d ∈ step c, d.rest <:+ c.rest) {n : ℕ} {c d : Cursor}
    (hd : d ∈ again step n c) : d.rest <:+ c.rest := by
  induction n generalizing c with
  | zero =>
      cases List.mem_singleton.mp hd
      exact List.suffix_refl _
  | succ n ih =>
      rcases List.mem_append.mp hd with hd | hd
      · obtain ⟨e, he, hde⟩ := List.mem_flatMap.mp hd
        exact (ih hde).trans (hstep c e (List.mem_filter.mp he).1)
      · cases List.mem_singleton.mp hd
        exact List.suffix_refl _

theorem ends_suffix {r : Regex} {c d : Cursor} (hd : d ∈ ends r c) : d.rest <:+ c.rest := by
  induction r generalizing c d with
  | empty =>
      cases List.mem_singleton.mp hd
      exact List.suffix_refl _
  | one p =>
      unfold ends at hd
      split at hd
      · rename_i x rest hrest
        split at hd
        · cases List.mem_singleton.mp hd
          rw [hrest]
          exact List.suffix_cons ..
        · cases hd
      · cases hd
  | seq r s ihr ihs =>
      obtain ⟨e, he, hde⟩ := List.mem_flatMap.mp hd
      exact (ihs hde).trans (ihr he)
  | alt r s ihr ihs => exact (List.mem_append.mp hd).elim ihr ihs
  | star r ih => exact again_suffix (fun _ _ h => ih h) hd
  | notAhead r ih =>
      unfold ends at hd
      split at hd
      · cases List.mem_singleton.mp hd
        exact List.suffix_refl _
      · cases hd
  | boundary isWord =>
      unfold ends at hd
      split at hd
      · cases hd
      · cases List.mem_singleton.mp hd
        exact List.suffix_refl _
  | group r ih =>
      obtain ⟨e, he, rfl⟩ := List.mem_map.mp hd
      have hsuffix : e.rest <:+ c.rest := ih he
      exact hsuffix

theorem matchAt_eq_some {r : Regex} {c d : Cursor} (h : r.matchAt c = some d) :
    d ∈ ends r c ∧ d.rest.length < c.rest.length := by
  obtain ⟨hhead, hlt⟩ := Option.filter_eq_some_iff.mp h
  exact ⟨List.mem_of_mem_head? hhead, of_decide_eq_true hlt⟩

theorem mem_subFrom {r : Regex} {replacement : Str} {n : ℕ} {c : Cursor} {x : ℕ}
    (h : x ∈ subFrom r replacement n c) : x ∈ replacement ∨ x ∈ c.rest := by
  induction n generalizing c with
  | zero => exact .inr h
  | succ n ih =>
      unfold subFrom at h
      split at h
      · rename_i d hd
        rcases List.mem_append.mp h with hx | hx
        · exact .inl hx
        · exact (ih hx).imp_right fun hx => (ends_suffix (matchAt_eq_some hd).1).subset hx
      · rename_i y rest _ hrest
        rw [hrest]
        rcases List.mem_cons.mp h with rfl | hx
        · exact .inr (List.mem_cons_self ..)
        · exact (ih hx).imp_right (List.mem_cons_of_mem _)
      · cases h

/-- What stands in a text with its matches replaced stands in the replacement or the text. -/
theorem mem_sub {r : Regex} {replacement s : Str} {x : ℕ} (h : x ∈ r.sub replacement s) :
    x ∈ replacement ∨ x ∈ s := mem_subFrom h

/-! ## Repetitions -/

/-- One repetition, which takes something of the text. -/
def Takes (step : Cursor → List Cursor) (c d : Cursor) : Prop := d ∈ step c ∧ d.rest.length < c.rest.length

/-- With as much fuel as there is text, all the repetitions are found. -/
theorem mem_again {step : Cursor → List Cursor} {n : ℕ} {c d : Cursor} (hn : c.rest.length ≤ n) :
    d ∈ again step n c ↔ Relation.ReflTransGen (Takes step) c d := by
  induction n generalizing c with
  | zero =>
      have hstuck : ∀ e, ¬ Takes step c e := fun e he => by
        have hlt := he.2
        omega
      constructor
      · intro hd
        cases List.mem_singleton.mp hd
        exact .refl
      · intro hd
        cases hd.cases_head with
        | inl heq => exact List.mem_singleton.mpr heq.symm
        | inr hstep =>
            obtain ⟨e, he, -⟩ := hstep
            exact absurd he (hstuck e)
  | succ n ih =>
      simp only [again, List.mem_append, List.mem_flatMap, List.mem_filter, decide_eq_true_eq, List.mem_singleton]
      constructor
      · rintro (⟨e, ⟨he, hlt⟩, hd⟩ | rfl)
        · exact .head ⟨he, hlt⟩ ((ih (by omega)).mp hd)
        · exact .refl
      · intro hd
        cases hd.cases_head with
        | inl heq => exact .inr heq.symm
        | inr hstep =>
            obtain ⟨e, he, hd⟩ := hstep
            have hlt := he.2
            exact .inl ⟨e, he, (ih (by omega)).mpr hd⟩

theorem mem_ends_star {r : Regex} {c d : Cursor} :
    d ∈ ends (star r) c ↔ Relation.ReflTransGen (Takes (ends r)) c d := mem_again le_rfl

theorem mem_ends_one {p : ℕ → Bool} {c d : Cursor} :
    d ∈ ends (one p) c ↔ ∃ x rest, c.rest = x :: rest ∧ p x = true ∧ d = ⟨x :: c.passed, rest, c.group⟩ := by
  unfold ends
  cases hrest : c.rest with
  | nil => simp
  | cons x rest =>
      by_cases hp : p x = true
      · simp [hp]
      · simp [hp]

/-- Some code points of a set. -/
theorem mem_ends_star_one {p : ℕ → Bool} {c d : Cursor} :
    d ∈ ends (star (one p)) c ↔
      ∃ x rest, c.rest = x ++ rest ∧ (∀ y ∈ x, p y = true) ∧ d = ⟨x.reverse ++ c.passed, rest, c.group⟩ := by
  rw [mem_ends_star]
  constructor
  · intro h
    induction h using Relation.ReflTransGen.head_induction_on with
    | refl => exact ⟨[], d.rest, rfl, by simp, rfl⟩
    | head hstep _ ih =>
        obtain ⟨x, rest, hrest, hp, rfl⟩ := mem_ends_one.mp hstep.1
        obtain ⟨y, later, hlater, hy, rfl⟩ := ih
        refine ⟨x :: y, later, ?_, ?_, by simp⟩
        · rw [hrest, List.cons_append]
          exact congrArg _ hlater
        · simpa [hp] using hy
  · rintro ⟨x, rest, hrest, hx, rfl⟩
    induction x generalizing c with
    | nil =>
        obtain ⟨passed, left, group⟩ := c
        cases hrest
        exact .refl
    | cons y x ih =>
        have htake : Takes (ends (one p)) c ⟨y :: c.passed, x ++ rest, c.group⟩ := by
          refine ⟨mem_ends_one.mpr ⟨y, x ++ rest, hrest, hx y (by simp), rfl⟩, ?_⟩
          rw [hrest]
          simp
        have hlater := ih (c := ⟨y :: c.passed, x ++ rest, c.group⟩) rfl fun z hz => hx z (by simp [hz])
        rw [List.reverse_cons, List.append_assoc]
        exact .head htake hlater

theorem mem_ends_seq {r s : Regex} {c d : Cursor} : d ∈ ends (seq r s) c ↔ ∃ e ∈ ends r c, d ∈ ends s e :=
  List.mem_flatMap

/-- Where there is only one way to match, it is the match. -/
theorem matchAt_of_forall {r : Regex} {c d : Cursor} (hd : d ∈ ends r c) (hall : ∀ e ∈ ends r c, e = d)
    (hlt : d.rest.length < c.rest.length) : r.matchAt c = some d := by
  cases hends : ends r c with
  | nil => rw [hends] at hd; cases hd
  | cons e rest =>
      have he : e = d := hall e (by simp [hends])
      simp [matchAt, hends, he, hlt]

theorem matchAt_eq_none {r : Regex} {c : Cursor} (h : ∀ d, d ∉ ends r c) : r.matchAt c = none := by
  simp [matchAt, List.eq_nil_iff_forall_not_mem.mpr h]

/-! ## More fuel than text -/

theorem findFrom_eq {r : Regex} {n m : ℕ} {c : Cursor} (hn : c.rest.length ≤ n) (hm : c.rest.length ≤ m) :
    findFrom r n c = findFrom r m c := by
  have hend : ∀ (k : ℕ) (c : Cursor), c.rest = [] → findFrom r k c = [] := fun k c hc => by
    cases k with
    | zero => rfl
    | succ k =>
        have hnone : r.matchAt c = none := by
          refine Option.eq_none_iff_forall_ne_some.mpr fun d hd => ?_
          have hlt := (matchAt_eq_some hd).2
          rw [hc] at hlt
          exact absurd hlt (Nat.not_lt_zero _)
        rw [findFrom, hnone, hc]
  induction n generalizing m c with
  | zero =>
      have hnil : c.rest = [] := List.length_eq_zero_iff.mp (by omega)
      rw [hend m c hnil, findFrom]
  | succ n ih =>
      cases m with
      | zero =>
          have hnil : c.rest = [] := List.length_eq_zero_iff.mp (by omega)
          rw [hend _ c hnil, findFrom]
      | succ m =>
          unfold findFrom
          split
          · rename_i d hd
            have hlt := (matchAt_eq_some hd).2
            rw [ih (c := { d with group := [] }) (m := m) (by simp only; omega) (by simp only; omega)]
          · rename_i x rest _ hrest
            rw [hrest, List.length_cons] at hn hm
            exact ih (by simp only; omega) (by simp only; omega)
          · rfl

end Regex
