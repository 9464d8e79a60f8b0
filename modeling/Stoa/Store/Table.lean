import Mathlib.Algebra.BigOperators.Group.List.Basic
import Mathlib.Data.List.Nodup
import Mathlib.Logic.Function.Basic

/-! # Finite tables and conditional transactions

A table stores at most one row under each key, and the row's type may depend on
the key. A transaction is a list of conditional writes to distinct keys: it is
applied as a whole when every condition holds, and not at all otherwise. -/

namespace RowStore

/-- A finite table. The stored keys are exactly those that carry a row. -/
structure Table (K : Type) (V : K → Type) where
  keys : List K
  row : (k : K) → Option (V k)
  nodup : keys.Nodup
  mem_keys : ∀ k, k ∈ keys ↔ (row k).isSome

/-- One item of a transaction. The condition is evaluated on the row stored
under `key`; the action says what is stored there after the commit. -/
structure Write (K : Type) (V : K → Type) where
  key : K
  condition : Option (V key) → Bool
  action : Option (V key) → Option (V key)

variable {K M : Type} {V : K → Type}

namespace Write

/-- A condition check writes nothing. -/
def check (key : K) (condition : Option (V key) → Bool) : Write K V :=
  ⟨key, condition, id⟩

/-- A conditional put replaces the whole row. -/
def put (key : K) (item : V key) (condition : Option (V key) → Bool) : Write K V :=
  ⟨key, condition, fun _ => some item⟩

/-- A put conditioned on `attribute_not_exists(PK) AND attribute_not_exists(SK)`. -/
def putNew (key : K) (item : V key) : Write K V :=
  put key item Option.isNone

/-- A conditional update computes the new row from the stored one. -/
def update (key : K) (change : Option (V key) → V key)
    (condition : Option (V key) → Bool) : Write K V :=
  ⟨key, condition, fun stored => some (change stored)⟩

/-- A conditional update that asks for attributes of the row, and so never
creates it. -/
def modify (key : K) (change : V key → V key) (condition : V key → Bool) : Write K V :=
  ⟨key, Option.any condition, Option.map change⟩

/-- A conditional delete removes the row. -/
def delete (key : K) (condition : Option (V key) → Bool) : Write K V :=
  ⟨key, condition, fun _ => none⟩

end Write

namespace Table

def empty : Table K V where
  keys := []
  row := fun _ => none
  nodup := List.nodup_nil
  mem_keys := by simp

@[simp] theorem row_empty (k : K) : (empty : Table K V).row k = none := rfl

/-- The sum of a measure over all stored rows. -/
def total [AddCommMonoid M] (t : Table K V) (measure : (k : K) → V k → M) : M :=
  (t.keys.map fun k => (t.row k).elim 0 (measure k)).sum

/-- A measure that ignores every stored row sums to nothing. -/
theorem total_eq_zero [AddCommMonoid M] (t : Table K V) (measure : (k : K) → V k → M)
    (h : ∀ k item, t.row k = some item → measure k item = 0) : t.total measure = 0 := by
  apply List.sum_eq_zero
  intro x hx
  obtain ⟨k, -, rfl⟩ := List.mem_map.mp hx
  cases hrow : t.row k with
  | none => rfl
  | some item => exact h k item hrow

private theorem sum_map_filter_ne_zero [AddCommMonoid M] (f : K → M) (ks : List K)
    [DecidablePred fun k => f k ≠ 0] :
    ((ks.filter fun k => f k ≠ 0).map f).sum = (ks.map f).sum := by
  induction ks with
  | nil => rfl
  | cons k ks ih =>
      rw [List.filter_cons, List.map_cons, List.sum_cons]
      split
      · rw [List.map_cons, List.sum_cons, ih]
      · rename_i hk
        have hzero : f k = 0 := by simpa using hk
        rw [ih, hzero, zero_add]

/-- A total depends on what each key contributes, and on nothing else. -/
theorem total_congr [AddCommMonoid M] {t u : Table K V} {measure : (k : K) → V k → M}
    (h : ∀ k, (t.row k).elim 0 (measure k) = (u.row k).elim 0 (measure k)) :
    t.total measure = u.total measure := by
  classical
  let f : K → M := fun k => (t.row k).elim 0 (measure k)
  have hmem : ∀ (v : Table K V) k, f k = (v.row k).elim 0 (measure k) → f k ≠ 0 →
      k ∈ v.keys := by
    intro v k hv hk
    rw [v.mem_keys]
    cases hrow : v.row k with
    | none => simp [hv, hrow] at hk
    | some item => rfl
  have hperm : (t.keys.filter fun k => f k ≠ 0).Perm (u.keys.filter fun k => f k ≠ 0) := by
    rw [List.perm_ext_iff_of_nodup (t.nodup.filter _) (u.nodup.filter _)]
    intro k
    simp only [List.mem_filter, decide_eq_true_eq]
    exact ⟨fun hk => ⟨hmem u k (h k) hk.2, hk.2⟩, fun hk => ⟨hmem t k rfl hk.2, hk.2⟩⟩
  calc t.total measure = ((t.keys.filter fun k => f k ≠ 0).map f).sum :=
        (sum_map_filter_ne_zero f t.keys).symm
    _ = ((u.keys.filter fun k => f k ≠ 0).map f).sum := (hperm.map f).sum_eq
    _ = (u.keys.map f).sum := sum_map_filter_ne_zero f u.keys
    _ = u.total measure := congrArg List.sum (List.map_congr_left fun k _ => h k)

/-- The stored rows whose key is selected. -/
def rows (t : Table K V) (select : K → Bool) : List ((k : K) × V k) :=
  (t.keys.filter select).filterMap fun k => (t.row k).map fun item => ⟨k, item⟩

theorem mem_rows {t : Table K V} {select : K → Bool} {x : (k : K) × V k} :
    x ∈ t.rows select ↔ select x.1 = true ∧ t.row x.1 = some x.2 := by
  obtain ⟨k, item⟩ := x
  simp only [rows, List.mem_filterMap, List.mem_filter, Option.map_eq_some_iff]
  constructor
  · rintro ⟨j, ⟨-, hsel⟩, found, hrow, heq⟩
    cases heq
    exact ⟨hsel, hrow⟩
  · rintro ⟨hsel, hrow⟩
    exact ⟨k, ⟨(t.mem_keys k).mpr (by simp [hrow]), hsel⟩, item, hrow, rfl⟩

/-- A listing has as many rows as are selected. -/
theorem length_rows (t : Table K V) (select : K → Bool) :
    (t.rows select).length = t.total fun k _ => if select k then 1 else 0 := by
  have hlist : ∀ ks : List K, ((ks.filter select).filterMap fun k =>
      (t.row k).map fun item => (⟨k, item⟩ : (k : K) × V k)).length =
        (ks.map fun k => (t.row k).elim 0 fun _ => if select k then 1 else 0).sum := fun ks => by
    induction ks with
    | nil => rfl
    | cons k ks ih =>
        rw [List.map_cons, List.sum_cons, ← ih]
        by_cases hk : select k = true
        · rw [List.filter_cons_of_pos hk]
          cases hrow : t.row k with
          | none => simp [hrow]
          | some item =>
              simp [hrow, hk]
              omega
        · rw [List.filter_cons_of_neg hk]
          cases t.row k <;> simp [hk]
  exact hlist t.keys

theorem nodup_rows (t : Table K V) (select : K → Bool) : (t.rows select).Nodup := by
  apply List.Nodup.filterMap _ (t.nodup.filter _)
  intro j k x hj hk
  simp only [Option.mem_def, Option.map_eq_some_iff] at hj hk
  obtain ⟨a, -, rfl⟩ := hj
  obtain ⟨b, -, heq⟩ := hk
  exact (congrArg Sigma.fst heq).symm

variable [DecidableEq K]

/-- Store `item` under `k`, or remove the row when `item` is `none`. -/
def set (t : Table K V) (k : K) (item : Option (V k)) : Table K V where
  keys := if item.isSome then t.keys.insert k else t.keys.erase k
  row := Function.update t.row k item
  nodup := by
    cases item
    · exact t.nodup.erase k
    · exact t.nodup.insert
  mem_keys := by
    intro j
    by_cases hj : j = k
    · subst hj
      cases item <;> simp [t.nodup.mem_erase_iff]
    · cases item <;> simp [hj, t.mem_keys, t.nodup.mem_erase_iff]

@[simp] theorem row_set_self (t : Table K V) (k : K) (item : Option (V k)) :
    (t.set k item).row k = item := by
  simp [set]

@[simp] theorem row_set_of_ne (t : Table K V) {k j : K} (item : Option (V k))
    (h : j ≠ k) : (t.set k item).row j = t.row j := by
  simp [set, h]

/-- Writing back the stored row changes nothing. -/
@[simp] theorem set_row_self (t : Table K V) (k : K) : t.set k (t.row k) = t := by
  have hkeys : (t.set k (t.row k)).keys = t.keys := by
    by_cases hk : k ∈ t.keys
    · simp [set, (t.mem_keys k).mp hk, hk]
    · have hnone : ¬ (t.row k).isSome := fun h => hk ((t.mem_keys k).mpr h)
      simp only [set, hnone, Bool.false_eq_true, ite_false]
      exact List.erase_of_not_mem hk
  have hrow : (t.set k (t.row k)).row = t.row := Function.update_eq_self k t.row
  cases t
  simp only [set] at hkeys hrow ⊢
  congr

/-- A total is the contribution of one key plus that of all others. -/
theorem total_eq_add_erase [AddCommMonoid M] (t : Table K V)
    (measure : (k : K) → V k → M) (k : K) :
    t.total measure =
      (t.row k).elim 0 (measure k) +
        ((t.keys.erase k).map fun j => (t.row j).elim 0 (measure j)).sum := by
  by_cases hk : k ∈ t.keys
  · have hperm := (List.perm_cons_erase hk).map fun j => (t.row j).elim 0 (measure j)
    simpa [total] using hperm.sum_eq
  · have hrow : t.row k = none := by
      simpa [t.mem_keys] using hk
    simp [total, hrow, List.erase_of_not_mem hk]

/-- Writing one row exchanges its contribution to a total. -/
theorem total_set [AddCommMonoid M] (t : Table K V) (measure : (k : K) → V k → M)
    (k : K) (item : Option (V k)) :
    (t.set k item).total measure + (t.row k).elim 0 (measure k) =
      t.total measure + item.elim 0 (measure k) := by
  have hkeys : ((t.set k item).keys.erase k).Perm (t.keys.erase k) := by
    rw [List.perm_ext_iff_of_nodup ((t.set k item).nodup.erase k) (t.nodup.erase k)]
    intro j
    rw [(t.set k item).nodup.mem_erase_iff, t.nodup.mem_erase_iff]
    refine and_congr_right fun hj => ?_
    rw [Table.mem_keys, Table.mem_keys, row_set_of_ne t item hj]
  have hrest :
      (((t.set k item).keys.erase k).map fun j =>
          ((t.set k item).row j).elim 0 (measure j)).sum =
        ((t.keys.erase k).map fun j => (t.row j).elim 0 (measure j)).sum := by
    rw [(hkeys.map _).sum_eq]
    refine congrArg List.sum (List.map_congr_left fun j hj => ?_)
    rw [row_set_of_ne t item (t.nodup.mem_erase_iff.mp hj).1]
  rw [total_eq_add_erase (t.set k item) measure k, total_eq_add_erase t measure k, hrest,
    row_set_self]
  ac_rfl

/-! ## Transactions -/

/-- The table after the writes of `ops`, taken in order. -/
def apply (t : Table K V) : List (Write K V) → Table K V
  | [] => t
  | w :: ops => (t.set w.key (w.action (t.row w.key))).apply ops

/-- Every condition of the transaction holds on the stored rows. -/
def Admits (t : Table K V) (ops : List (Write K V)) : Prop :=
  (ops.map Write.key).Nodup ∧ ∀ w ∈ ops, w.condition (t.row w.key) = true

instance (t : Table K V) (ops : List (Write K V)) : Decidable (t.Admits ops) :=
  inferInstanceAs (Decidable (_ ∧ _))

/-- A transaction commits as a whole or not at all. -/
def transact (t : Table K V) (ops : List (Write K V)) : Option (Table K V) :=
  if t.Admits ops then some (t.apply ops) else none

theorem transact_eq_some {t t' : Table K V} {ops : List (Write K V)} :
    t.transact ops = some t' ↔ t.Admits ops ∧ t' = t.apply ops := by
  unfold transact
  split
  · rename_i h
    simp [h, eq_comm]
  · rename_i h
    simp [h]

theorem transact_eq_none {t : Table K V} {ops : List (Write K V)} :
    t.transact ops = none ↔ ¬ t.Admits ops := by
  unfold transact
  split <;> simp_all

/-- Keys that no write names keep their rows. -/
theorem row_apply_of_notMem (t : Table K V) (ops : List (Write K V)) (k : K)
    (h : ∀ w ∈ ops, k ≠ w.key) : (t.apply ops).row k = t.row k := by
  induction ops generalizing t with
  | nil => rfl
  | cons w ops ih =>
      rw [apply, ih _ (fun v hv => h v (by simp [hv])), row_set_of_ne _ _ (h w (by simp))]

theorem apply_append (t : Table K V) (ops ops' : List (Write K V)) :
    t.apply (ops ++ ops') = (t.apply ops).apply ops' := by
  induction ops generalizing t with
  | nil => rfl
  | cons w ops ih => exact ih _

/-- Condition checks change nothing. -/
theorem apply_checks (t : Table K V) {ops : List (Write K V)} (h : ∀ w ∈ ops, w.action = id) :
    t.apply ops = t := by
  induction ops with
  | nil => rfl
  | cons w ops ih =>
      rw [apply, h w (by simp), id_eq, set_row_self, ih fun v hv => h v (by simp [hv])]

/-- A key that one write names gets that write's row. -/
theorem row_apply_of_mem (t : Table K V) {ops : List (Write K V)}
    (hkeys : (ops.map Write.key).Nodup) {w : Write K V} (hw : w ∈ ops) :
    (t.apply ops).row w.key = w.action (t.row w.key) := by
  induction ops generalizing t with
  | nil => simp at hw
  | cons v ops ih =>
      rw [List.map_cons, List.nodup_cons] at hkeys
      rcases List.mem_cons.mp hw with rfl | hw
      · have hrest : ∀ v ∈ ops, w.key ≠ v.key := fun v hv he =>
          hkeys.1 (he ▸ List.mem_map_of_mem hv)
        rw [apply, row_apply_of_notMem _ _ _ hrest, row_set_self]
      · have hne : w.key ≠ v.key := fun he => hkeys.1 (he ▸ List.mem_map_of_mem hw)
        rw [apply, ih _ hkeys.2 hw, row_set_of_ne _ _ hne]

/-- The same rows are stored under every key of a part of the table. -/
def AgreesOn (part : K → Prop) (t u : Table K V) : Prop := ∀ k, part k → t.row k = u.row k

namespace AgreesOn

variable {P : K → Prop} {t u v : Table K V}

omit [DecidableEq K] in
theorem refl (P : K → Prop) (t : Table K V) : t.AgreesOn P t := fun _ _ => rfl

omit [DecidableEq K] in
theorem symm (h : t.AgreesOn P u) : u.AgreesOn P t := fun k hk => (h k hk).symm

omit [DecidableEq K] in
theorem trans (h : t.AgreesOn P u) (h' : u.AgreesOn P v) : t.AgreesOn P v :=
  fun k hk => (h k hk).trans (h' k hk)

omit [DecidableEq K] in
/-- A measure of the rows of the part alone has the same total. -/
theorem total [AddCommMonoid M] (h : t.AgreesOn P u) {measure : (k : K) → V k → M}
    (hpart : ∀ k item, ¬ P k → measure k item = 0) : t.total measure = u.total measure := by
  refine total_congr fun k => ?_
  by_cases hk : P k
  · rw [h k hk]
  · have hzero : ∀ x : Option (V k), x.elim 0 (measure k) = 0 := by
      rintro (_ | item)
      · rfl
      · exact hpart k item hk
    rw [hzero, hzero]

/-- Both tables get the same row. -/
theorem set (h : t.AgreesOn P u) (k : K) (item : Option (V k)) :
    (t.set k item).AgreesOn P (u.set k item) := by
  intro j hj
  by_cases he : j = k
  · subst he
    rw [row_set_self, row_set_self]
  · rw [row_set_of_ne _ _ he, row_set_of_ne _ _ he]
    exact h j hj

/-- Writes outside of the part are not seen in it, nor are condition checks. -/
theorem apply_frame (t : Table K V) {ops : List (Write K V)}
    (h : ∀ w ∈ ops, w.action = id ∨ ¬ P w.key) : (t.apply ops).AgreesOn P t := by
  induction ops generalizing t with
  | nil => exact refl P t
  | cons w ops ih =>
      refine (ih (t.set w.key (w.action (t.row w.key))) fun v hv => h v (by simp [hv])).trans ?_
      rcases h w (by simp) with hid | hout
      · rw [hid, id_eq, set_row_self]
        exact refl P t
      · exact fun k hk => row_set_of_ne _ _ fun he => hout (he ▸ hk)

theorem apply_outside (t : Table K V) {ops : List (Write K V)}
    (h : ∀ w ∈ ops, ¬ P w.key) : (t.apply ops).AgreesOn P t :=
  apply_frame t fun w hw => .inr (h w hw)

/-- A row that is not the same has been written. -/
theorem row_apply_or_write (t : Table K V) (ops : List (Write K V)) (k : K) :
    (t.apply ops).row k = t.row k ∨ ∃ w ∈ ops, w.key = k ∧ w.action ≠ id := by
  by_cases h : ∃ w ∈ ops, w.key = k ∧ w.action ≠ id
  · exact .inr h
  · have hsame : (t.apply ops).AgreesOn (fun j => j = k) t := apply_frame t fun w hw => by
      by_contra hboth
      obtain ⟨hid, hkey⟩ := not_or.mp hboth
      exact h ⟨w, hw, not_not.mp hkey, hid⟩
    exact .inl (hsame k rfl)

/-- Only the row under one key counts differently. -/
theorem total_of_ne [AddCommMonoid M] {j : K} (h : u.AgreesOn (fun k => P k ∧ k ≠ j) t)
    {measure : (k : K) → V k → M} (hpart : ∀ k item, ¬ P k → measure k item = 0) :
    u.total measure + (t.row j).elim 0 (measure j) =
      t.total measure + (u.row j).elim 0 (measure j) := by
  have hset : u.AgreesOn P (t.set j (u.row j)) := by
    intro k hk
    by_cases hkj : k = j
    · rw [hkj, row_set_self]
    · rw [row_set_of_ne _ _ hkj]
      exact h k ⟨hk, hkj⟩
  rw [hset.total hpart]
  exact total_set t measure j (u.row j)

/-- The same writes on both tables. -/
theorem apply (h : t.AgreesOn P u) (ops : List (Write K V)) :
    (t.apply ops).AgreesOn P (u.apply ops) := by
  induction ops generalizing t u with
  | nil => exact h
  | cons w ops ih =>
      refine ih ?_
      by_cases hk : P w.key
      · rw [h w.key hk]
        exact h.set w.key _
      · intro j hj
        have hne : j ≠ w.key := fun he => hk (he ▸ hj)
        rw [row_set_of_ne _ _ hne, row_set_of_ne _ _ hne]
        exact h j hj

end AgreesOn

end Table

end RowStore
