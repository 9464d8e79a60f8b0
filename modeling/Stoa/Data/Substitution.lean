import Stoa.Data.Regex

/-! # Substitution

A search cuts a text into the code points that it passes over and its matches. A
replacement may depend on the match, and may fail. -/

open PyText

namespace Regex

/-- A text from a place on, cut into what a search leaves and where its matches begin and end. -/
def cutFrom (r : Regex) : ℕ → Cursor → List (ℕ ⊕ Cursor × Cursor)
  | 0, c => c.rest.map .inl
  | n + 1, c =>
    match r.matchAt c, c.rest with
    | some d, _ => .inr (c, d) :: cutFrom r n { d with group := [] }
    | none, x :: rest => .inl x :: cutFrom r n ⟨x :: c.passed, rest, []⟩
    | none, [] => []

def cut (r : Regex) (c : Cursor) : List (ℕ ⊕ Cursor × Cursor) := cutFrom r c.rest.length c

/-- What a match matches. -/
def matched (m : Cursor × Cursor) : Str := m.1.between m.2

/-- `re.sub` with a function of the match, for an expression that does not match the empty text. -/
def subWith (r : Regex) (f : Cursor × Cursor → Str) (s : Str) : Str :=
  (r.cut (.start s)).flatMap (Sum.elim (fun x => [x]) f)

/-- `re.sub` with a function of the match that may fail. -/
def subWithM {ε : Type} (r : Regex) (f : Cursor × Cursor → Except ε Str) (s : Str) : Except ε Str :=
  List.flatten <$> (r.cut (.start s)).mapM (Sum.elim (fun x => .ok [x]) f)

/-! ## The first way to match -/

/-- The first place where a match from here may end. -/
def First (r : Regex) (c d : Cursor) : Prop := (ends r c).head? = some d

section

variable {r s : Regex} {c d e : Cursor} {p : ℕ → Bool} {x : ℕ} {rest : Str}

theorem First.mem (h : First r c d) : d ∈ ends r c := List.mem_of_mem_head? h

theorem ends_eq_nil : ends r c = [] ↔ ∀ d, d ∉ ends r c := List.eq_nil_iff_forall_not_mem

theorem First.one (hrest : c.rest = x :: rest) (hp : p x = true) :
    First (.one p) c ⟨x :: c.passed, rest, c.group⟩ := by
  simp [First, ends, hrest, hp]

theorem First.seq (hr : First r c e) (hs : First s e d) : First (.seq r s) c d := by
  obtain ⟨others, hothers⟩ := List.head?_eq_some_iff.mp hr
  obtain ⟨later, hlater⟩ := List.head?_eq_some_iff.mp hs
  simp [First, ends, hothers, hlater]

theorem First.alt (h : First r c d) : First (.alt r s) c d := by
  obtain ⟨others, hothers⟩ := List.head?_eq_some_iff.mp h
  simp [First, ends, hothers]

theorem First.alt_right (hr : ends r c = []) (h : First s c d) : First (.alt r s) c d := by
  rw [First, ends, hr]
  exact h

theorem First.opt (h : First r c d) : First (.opt r) c d := .alt h

theorem First.opt_none (h : ends r c = []) : First (.opt r) c c := .alt_right h rfl

theorem First.notAhead (h : ends r c = []) : First (.notAhead r) c c := by
  simp [First, ends, h]

theorem First.group (h : First r c d) : First (.group r) c { d with group := c.between d } := by
  obtain ⟨others, hothers⟩ := List.head?_eq_some_iff.mp h
  simp [First, ends, hothers]

theorem First.matchAt (h : First r c d) (hlt : d.rest.length < c.rest.length) : r.matchAt c = some d := by
  have hends : (ends r c).head? = some d := h
  simp [Regex.matchAt, hends, hlt]

/-- With as much fuel as there is text, more fuel finds no more. -/
theorem again_eq {step : Cursor → List Cursor} {n m : ℕ} (hn : c.rest.length ≤ n) (hm : c.rest.length ≤ m) :
    again step n c = again step m c := by
  have hstuck : ∀ k c, c.rest.length = 0 → again step k c = [c] := by
    intro k c hc
    cases k with
    | zero => rfl
    | succ k => simp [again, hc]
  induction n generalizing m c with
  | zero => rw [hstuck 0 c (by omega), hstuck m c (by omega)]
  | succ n ih =>
      cases m with
      | zero => rw [hstuck 0 c (by omega), hstuck (n + 1) c (by omega)]
      | succ m =>
          rw [again, again]
          refine congrArg (· ++ [c]) (List.flatMap_congr fun d hd => ?_)
          have hlt : d.rest.length < c.rest.length := by simpa using (List.mem_filter.mp hd).2
          exact ih (by omega) (by omega)

/-- One more repetition. -/
theorem First.star (h : First r c e) (hlt : e.rest.length < c.rest.length) (hstar : First (.star r) e d) :
    First (.star r) c d := by
  obtain ⟨others, hothers⟩ := List.head?_eq_some_iff.mp h
  obtain ⟨n, hn⟩ : ∃ n, c.rest.length = n + 1 := ⟨c.rest.length - 1, by omega⟩
  have hends : again (ends r) n e = ends (.star r) e := again_eq (by omega) le_rfl
  obtain ⟨later, hlater⟩ := List.head?_eq_some_iff.mp hstar
  rw [First, ends, hn, again, hothers, List.filter_cons_of_pos (by simpa using hlt), List.flatMap_cons, hends, hlater]
  rfl

theorem First.star_none (h : ends r c = []) : First (.star r) c c := by
  rw [First, ends]
  cases c.rest.length with
  | zero => rfl
  | succ n => simp [again, h]

theorem ends_one_eq_nil (h : ∀ x ∈ c.rest.head?, p x = false) : ends (.one p) c = [] := by
  unfold ends
  cases hrest : c.rest with
  | nil => rfl
  | cons x rest => simp [h x (by simp [hrest])]

theorem ends_seq_eq_nil (h : ends r c = []) : ends (.seq r s) c = [] := by
  simp [ends, h]

/-- As many code points of a set as there are. -/
theorem First.star_one {w : Str} (hrest : c.rest = w ++ rest) (hw : ∀ x ∈ w, p x = true)
    (hstop : ∀ x ∈ rest.head?, p x = false) :
    First (.star (.one p)) c ⟨w.reverse ++ c.passed, rest, c.group⟩ := by
  induction w generalizing c with
  | nil =>
      obtain ⟨passed, left, group⟩ := c
      cases hrest
      exact .star_none (ends_one_eq_nil hstop)
  | cons x w ih =>
      have hone : First (.one p) c ⟨x :: c.passed, w ++ rest, c.group⟩ := .one hrest (hw x (by simp))
      have hlater := ih (c := ⟨x :: c.passed, w ++ rest, c.group⟩) rfl fun y hy => hw y (by simp [hy])
      rw [List.reverse_cons, List.append_assoc]
      exact .star hone (by simp [hrest]) hlater

theorem First.plus_one {w : Str} (hne : w ≠ []) (hrest : c.rest = w ++ rest) (hw : ∀ x ∈ w, p x = true)
    (hstop : ∀ x ∈ rest.head?, p x = false) :
    First (.plus (.one p)) c ⟨w.reverse ++ c.passed, rest, c.group⟩ := by
  obtain ⟨x, w, rfl⟩ := List.exists_cons_of_ne_nil hne
  have hstar := First.star_one (c := ⟨x :: c.passed, w ++ rest, c.group⟩) (p := p) rfl
    (fun y hy => hw y (by simp [hy])) hstop
  rw [List.reverse_cons, List.append_assoc]
  exact .seq (.one hrest (hw x (by simp))) hstar

end

/-! ## Cutting a text -/

section

variable {r : Regex} {c d : Cursor} {x : ℕ} {s rest : Str}

theorem matchAt_nil (hrest : c.rest = []) : r.matchAt c = none := by
  refine Option.eq_none_iff_forall_ne_some.mpr fun d hd => ?_
  have hlt := (matchAt_eq_some hd).2
  rw [hrest] at hlt
  exact absurd hlt (Nat.not_lt_zero _)

theorem cutFrom_eq {n m : ℕ} (hn : c.rest.length ≤ n) (hm : c.rest.length ≤ m) : cutFrom r n c = cutFrom r m c := by
  have hend : ∀ (k : ℕ) (c : Cursor), c.rest = [] → cutFrom r k c = [] := by
    intro k c hc
    cases k with
    | zero => simp [cutFrom, hc]
    | succ k => rw [cutFrom, matchAt_nil hc, hc]
  induction n generalizing m c with
  | zero =>
      have hnil : c.rest = [] := List.length_eq_zero_iff.mp (by omega)
      rw [hend 0 c hnil, hend m c hnil]
  | succ n ih =>
      cases m with
      | zero =>
          have hnil : c.rest = [] := List.length_eq_zero_iff.mp (by omega)
          rw [hend 0 c hnil, hend (n + 1) c hnil]
      | succ m =>
          unfold cutFrom
          split
          · rename_i d hd
            have hlt := (matchAt_eq_some hd).2
            rw [ih (c := { d with group := [] }) (m := m) (by simp only; omega) (by simp only; omega)]
          · rename_i x rest _ hrest
            rw [hrest, List.length_cons] at hn hm
            rw [ih (c := ⟨x :: c.passed, rest, []⟩) (m := m) (by simp only; omega) (by simp only; omega)]
          · rfl

theorem cut_nil (hrest : c.rest = []) : r.cut c = [] := by
  simp [cut, cutFrom, hrest]

theorem cut_of_match (h : r.matchAt c = some d) : r.cut c = .inr (c, d) :: r.cut { d with group := [] } := by
  have hlt := (matchAt_eq_some h).2
  obtain ⟨n, hn⟩ : ∃ n, c.rest.length = n + 1 := ⟨c.rest.length - 1, by omega⟩
  have hlater : cutFrom r n { d with group := [] } = r.cut { d with group := [] } :=
    cutFrom_eq (by simp only; omega) le_rfl
  rw [cut, hn, cutFrom, h]
  exact congrArg _ hlater

theorem cut_of_none (h : r.matchAt c = none) (hrest : c.rest = x :: rest) :
    r.cut c = .inl x :: r.cut ⟨x :: c.passed, rest, []⟩ := by
  rw [cut, hrest, List.length_cons, cutFrom, h, hrest]
  rfl

/-- A part of the text in which no match begins is left. -/
theorem cut_append {w passed : Str}
    (h : ∀ u y v, w = u ++ y :: v → r.matchAt ⟨u.reverse ++ passed, y :: v ++ rest, []⟩ = none) :
    r.cut ⟨passed, w ++ rest, []⟩ = w.map .inl ++ r.cut ⟨w.reverse ++ passed, rest, []⟩ := by
  induction w generalizing passed with
  | nil => rfl
  | cons x w ih =>
      have hnone : r.matchAt ⟨passed, x :: w ++ rest, []⟩ = none := h [] x w rfl
      have hlater : ∀ u y v, w = u ++ y :: v → r.matchAt ⟨u.reverse ++ x :: passed, y :: v ++ rest, []⟩ = none := by
        intro u y v huv
        simpa using h (x :: u) y v (by rw [huv, List.cons_append])
      have hstep : r.cut ⟨passed, x :: w ++ rest, []⟩ = .inl x :: r.cut ⟨x :: passed, w ++ rest, []⟩ :=
        cut_of_none hnone rfl
      rw [hstep]
      have hcut := ih hlater
      simp only [List.map_cons, List.cons_append, List.reverse_cons, List.append_assoc, List.nil_append]
      rw [hcut]

/-- Where nothing matches, the text is left. -/
theorem cut_of_forall {w passed : Str} (h : ∀ u y v, w = u ++ y :: v → r.matchAt ⟨u.reverse ++ passed, y :: v, []⟩ = none) :
    r.cut ⟨passed, w, []⟩ = w.map .inl := by
  have hcut : r.cut ⟨passed, w ++ [], []⟩ = w.map .inl ++ r.cut ⟨w.reverse ++ passed, [], []⟩ :=
    cut_append (by simpa using h)
  have hend : r.cut ⟨w.reverse ++ passed, [], []⟩ = [] := cut_nil rfl
  rw [List.append_nil, hend, List.append_nil] at hcut
  exact hcut

theorem flatMap_inl (f : Cursor × Cursor → Str) (w : Str) :
    (w.map .inl).flatMap (Sum.elim (fun x => [x]) f) = w := by
  induction w with
  | nil => rfl
  | cons x w ih => simp [ih]

theorem subWith_of_forall {f : Cursor × Cursor → Str} (h : ∀ u y v, s = u ++ y :: v → r.matchAt ⟨u.reverse, y :: v, []⟩ = none) :
    r.subWith f s = s := by
  rw [subWith, Cursor.start, cut_of_forall (by simpa using h), flatMap_inl]

theorem between_append (c : Cursor) (w rest group : Str) : c.between ⟨w.reverse ++ c.passed, rest, group⟩ = w := by
  simp [Cursor.between]

end

end Regex
