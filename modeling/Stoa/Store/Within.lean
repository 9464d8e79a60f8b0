import Stoa.Store.Auxiliary
import Mathlib.Logic.Equiv.Defs

/-! # Programs within a larger table

A program written for a table of its own runs within a larger one, and each of
its transactions carries the writes of a caller. What it guarantees about its
own rows it still guarantees there. -/

namespace RowStore

variable {K L : Type} {V : K → Type} {W : L → Type} {α : Type}

/-- A table is its keys and its rows. -/
theorem Table.ext {t u : Table K V} (hkeys : t.keys = u.keys) (hrow : t.row = u.row) : t = u := by
  cases t
  cases u
  cases hkeys
  cases hrow
  rfl

/-- Where a table lies within a larger one. -/
structure Slice (K : Type) (V : K → Type) (L : Type) (W : L → Type) where
  key : K → L
  row : (k : K) → V k ≃ W (key k)
  covers : L → Option K
  restrict : (l : L) → W l → Option ((k : K) × V k)
  covers_key : ∀ k, covers (key k) = some k
  key_of_covers : ∀ {l k}, covers l = some k → key k = l
  restrict_key : ∀ k item, restrict (key k) item = some ⟨k, (row k).symm item⟩
  restrict_outside : ∀ {l}, covers l = none → ∀ item, restrict l item = none

namespace Slice

variable (S : Slice K V L W)

theorem key_injective : Function.Injective S.key := fun j k h =>
  Option.some_inj.mp ((S.covers_key j).symm.trans (h ▸ S.covers_key k))

/-- The rows of the slice, as the table that they are. -/
def table (t : Table L W) : Table K V where
  keys := t.keys.filterMap S.covers
  row := fun k => (t.row (S.key k)).map (S.row k).symm
  nodup := by
    refine List.Nodup.filterMap (fun l l' k hl hl' => ?_) t.nodup
    exact (S.key_of_covers hl).symm.trans (S.key_of_covers hl')
  mem_keys := by
    intro k
    rw [List.mem_filterMap, Option.isSome_map, ← t.mem_keys]
    constructor
    · rintro ⟨l, hl, hk⟩
      exact S.key_of_covers hk ▸ hl
    · exact fun hk => ⟨S.key k, hk, S.covers_key k⟩

@[simp] theorem row_table (t : Table L W) (k : K) :
    (S.table t).row k = (t.row (S.key k)).map (S.row k).symm := rfl

/-- A write to the slice, in the larger table. -/
def write (w : Write K V) : Write L W where
  key := S.key w.key
  condition := fun stored => w.condition (stored.map (S.row w.key).symm)
  action := fun stored => (w.action (stored.map (S.row w.key).symm)).map (S.row w.key)

/-- What a query of the larger table answers about the slice. -/
def rows (found : List ((l : L) × W l)) : List ((k : K) × V k) :=
  found.filterMap fun x => S.restrict x.1 x.2

/-! ## Tables -/

theorem rows_answer (t : Table L W) (select : K → Bool) :
    S.rows (t.rows fun l => (S.covers l).any select) = (S.table t).rows select := by
  have hkeys : ∀ ks : List L,
      ((ks.filter fun l => (S.covers l).any select).filterMap fun l =>
        (t.row l).map fun item => (⟨l, item⟩ : (l : L) × W l)).filterMap
          (fun x => S.restrict x.1 x.2) =
      ((ks.filterMap S.covers).filter select).filterMap fun k =>
        ((S.table t).row k).map fun item => (⟨k, item⟩ : (k : K) × V k) := by
    intro ks
    induction ks with
    | nil => rfl
    | cons l ks ih =>
        cases hcovers : S.covers l with
        | none =>
            rw [List.filter_cons_of_neg (by simp [hcovers]), List.filterMap_cons_none hcovers]
            exact ih
        | some k =>
            obtain rfl := S.key_of_covers hcovers
            rw [List.filterMap_cons_some hcovers]
            by_cases hselect : select k = true
            · rw [List.filter_cons_of_pos (by simpa [hcovers] using hselect),
                List.filter_cons_of_pos hselect]
              cases hrow : t.row (S.key k) with
              | none =>
                  rw [List.filterMap_cons_none (by simp [hrow]),
                    List.filterMap_cons_none (by simp [hrow])]
                  exact ih
              | some item =>
                  rw [List.filterMap_cons_some (b := ⟨S.key k, item⟩) (by simp [hrow]),
                    List.filterMap_cons_some (f := fun x : (l : L) × W l => S.restrict x.1 x.2)
                      (a := ⟨S.key k, item⟩) (S.restrict_key k item),
                    List.filterMap_cons_some (b := ⟨k, (S.row k).symm item⟩) (by simp [hrow]), ih]
            · rw [List.filter_cons_of_neg (by simpa [hcovers] using hselect),
                List.filter_cons_of_neg hselect]
              exact ih
  exact hkeys t.keys

/-- An answer of the larger table is an answer of the slice. -/
theorem answers {t : Table L W} {select : K → Bool} {found : List ((l : L) × W l)}
    (h : t.Answers (fun l => (S.covers l).any select) found) :
    (S.table t).Answers select (S.rows found) := by
  rw [Table.Answers, ← S.rows_answer t select]
  exact List.Perm.filterMap _ h

section

variable [DecidableEq K] [DecidableEq L]

theorem table_set (t : Table L W) (k : K) (item : Option (V k)) :
    S.table (t.set (S.key k) (item.map (S.row k))) = (S.table t).set k item := by
  have hmem : S.key k ∈ t.keys ↔ k ∈ t.keys.filterMap S.covers := by
    rw [List.mem_filterMap]
    exact ⟨fun h => ⟨_, h, S.covers_key k⟩, fun ⟨l, hl, hk⟩ => S.key_of_covers hk ▸ hl⟩
  have hkeys : (S.table (t.set (S.key k) (item.map (S.row k)))).keys =
      ((S.table t).set k item).keys := by
    cases item with
    | none =>
        change (t.keys.erase (S.key k)).filterMap S.covers = (t.keys.filterMap S.covers).erase k
        have herase : ∀ ks : List L, (ks.erase (S.key k)).filterMap S.covers =
            (ks.filterMap S.covers).erase k := by
          intro ks
          induction ks with
          | nil => rfl
          | cons l ks ih =>
              by_cases hl : l = S.key k
              · subst hl
                rw [List.erase_cons_head, List.filterMap_cons_some (S.covers_key k),
                  List.erase_cons_head]
              · rw [List.erase_cons_tail (by simpa using hl)]
                cases hcovers : S.covers l with
                | none => rw [List.filterMap_cons_none hcovers, List.filterMap_cons_none hcovers, ih]
                | some j =>
                    have hj : j ≠ k := fun he => hl (he ▸ (S.key_of_covers hcovers).symm)
                    rw [List.filterMap_cons_some hcovers, List.filterMap_cons_some hcovers,
                      List.erase_cons_tail (by simpa using hj), ih]
        exact herase t.keys
    | some v =>
        change (t.keys.insert (S.key k)).filterMap S.covers = (t.keys.filterMap S.covers).insert k
        by_cases hk : S.key k ∈ t.keys
        · rw [List.insert_of_mem hk, List.insert_of_mem (hmem.mp hk)]
        · rw [List.insert_of_not_mem hk, List.insert_of_not_mem fun h => hk (hmem.mpr h),
            List.filterMap_cons_some (S.covers_key k)]
  have hrow : (S.table (t.set (S.key k) (item.map (S.row k)))).row = ((S.table t).set k item).row := by
    funext j
    by_cases hj : j = k
    · subst hj
      cases item <;> simp
    · have hne : S.key j ≠ S.key k := fun he => hj (S.key_injective he)
      simp [hj, hne]
  exact Table.ext hkeys hrow

omit [DecidableEq K] in
theorem table_set_outside (t : Table L W) {l : L} (hl : S.covers l = none) (item : Option (W l)) :
    S.table (t.set l item) = S.table t := by
  have hne : ∀ k, S.key k ≠ l := fun k he => by
    rw [← he, S.covers_key] at hl
    cases hl
  have hkeys : (S.table (t.set l item)).keys = (S.table t).keys := by
    cases item with
    | none =>
        change (t.keys.erase l).filterMap S.covers = t.keys.filterMap S.covers
        have herase : ∀ ks : List L, (ks.erase l).filterMap S.covers = ks.filterMap S.covers := by
          intro ks
          induction ks with
          | nil => rfl
          | cons j ks ih =>
              by_cases hj : j = l
              · subst hj
                rw [List.erase_cons_head, List.filterMap_cons_none hl]
              · rw [List.erase_cons_tail (by simpa using hj), List.filterMap_cons, ih,
                  List.filterMap_cons]
        exact herase t.keys
    | some v =>
        change (t.keys.insert l).filterMap S.covers = t.keys.filterMap S.covers
        by_cases hk : l ∈ t.keys
        · rw [List.insert_of_mem hk]
        · rw [List.insert_of_not_mem hk, List.filterMap_cons_none hl]
  have hrow : (S.table (t.set l item)).row = (S.table t).row := by
    funext k
    rw [row_table, row_table, Table.row_set_of_ne _ _ (hne k)]
  exact Table.ext hkeys hrow

theorem table_apply (t : Table L W) (ops : List (Write K V)) :
    S.table (t.apply (ops.map S.write)) = (S.table t).apply ops := by
  induction ops generalizing t with
  | nil => rfl
  | cons w ops ih =>
      rw [List.map_cons, Table.apply, ih, Table.apply]
      exact congrArg (Table.apply · ops) (S.table_set t w.key _)

omit [DecidableEq K] in
/-- Writes outside of the slice are not seen in it, nor are condition checks. -/
theorem table_apply_outside (t : Table L W) {ops : List (Write L W)}
    (h : ∀ w ∈ ops, w.action = id ∨ S.covers w.key = none) : S.table (t.apply ops) = S.table t := by
  induction ops generalizing t with
  | nil => rfl
  | cons w ops ih =>
      rw [Table.apply, ih _ fun v hv => h v (List.mem_cons_of_mem _ hv)]
      rcases h w (List.mem_cons_self ..) with hid | hout
      · rw [hid, id_eq, Table.set_row_self]
      · rw [S.table_set_outside t hout]

variable {S} {around : List (Write L W)} {ops : List (Write K V)} {t : Table L W}

theorem table_apply_around (h : ∀ w ∈ around, w.action = id ∨ S.covers w.key = none) :
    S.table (t.apply (around ++ ops.map S.write)) = (S.table t).apply ops := by
  rw [Table.apply_append, table_apply, S.table_apply_outside t h]

omit [DecidableEq K] [DecidableEq L] in
theorem admits_of_around (h : t.Admits (around ++ ops.map S.write)) : (S.table t).Admits ops := by
  refine ⟨?_, fun w hw => h.2 (S.write w) (List.mem_append_right _ (List.mem_map_of_mem hw))⟩
  have hnodup := h.1
  rw [List.map_append, List.nodup_append] at hnodup
  refine List.Nodup.of_map S.key ?_
  have hkeys : (ops.map Write.key).map S.key = (ops.map S.write).map Write.key := by
    rw [List.map_map, List.map_map]
    rfl
  exact hkeys ▸ hnodup.2.1

end

end Slice

/-! ## Programs -/

namespace Program

/-- The program within the larger table, with the caller's writes around each of
its transactions. -/
def within (S : Slice K V L W) (around : List (Write L W)) : Program K V α → Program L W α
  | ret a => ret a
  | read k next => read (S.key k) fun r => (next (r.map (Option.map (S.row k).symm))).within S around
  | query select next => query (fun l => (S.covers l).any select) fun found =>
      (next (found.map S.rows)).within S around
  | transact ops next => transact (around ++ ops.map S.write) fun ok => (next ok).within S around

variable {P : List (Write K V) → Prop}

theorem Submits.retry {attempt : Program K V (Option α)} (h : attempt.Submits P) (exhausted : α) :
    ∀ n, (Program.retry attempt exhausted n).Submits P
  | 0 => trivial
  | n + 1 => h.bind fun a => match a with
    | some _ => trivial
    | none => Submits.retry h exhausted n

end Program

/-- A commit within the larger table: a transaction of the program, and the
caller's writes with it. -/
def Slice.Commits [DecidableEq L] (S : Slice K V L W) (around : List (Write L W))
    (P : List (Write K V) → Prop) (G : Table K V → Table K V → Prop) (t t' : Table L W) : Prop :=
  ∃ ops, P ops ∧ t.Admits (around ++ ops.map S.write) ∧
    t' = t.apply (around ++ ops.map S.write) ∧ G (S.table t) (S.table t')

/-- What a program does to its own table it does within the larger one, where a
transaction may also be refused for the caller's writes. -/
theorem Program.Safe.within [DecidableEq K] [DecidableEq L] {S : Slice K V L W}
    {around : List (Write L W)} {F : Faults} {I : Interference K V} {J : Interference L W}
    {G : Table K V → Table K V → Prop} {Q : Post K V α} {P : List (Write K V) → Prop}
    (hinv : ∀ t, J.Inv t → I.Inv (S.table t))
    (hrely : ∀ t u, J.Rely t u → I.Rely (S.table t) (S.table u))
    (houtside : ∀ w ∈ around, w.action = id ∨ S.covers w.key = none) {p : Program K V α} (hp : p.Submits P)
    {own : List (Table L W × Table L W)} {t : Table L W}
    (h : p.Safe { F with writeRefused := True } I G Q (own.map fun c => (S.table c.1, S.table c.2)) (S.table t)) :
    (p.within S around).Safe F J (S.Commits around P G)
      (fun a own u => Q a (own.map fun c => (S.table c.1, S.table c.2)) (S.table u)) own t := by
  induction p generalizing own t with
  | ret a => exact h
  | read k next ih =>
      intro u hr hi
      have hu := h (S.table u) (hrely _ _ hr) (hinv _ hi)
      exact ⟨ih _ (hp _) hu.1, fun hf => ih _ (hp _) (hu.2 hf)⟩
  | query select next ih =>
      intro u hr hi
      have hu := h (S.table u) (hrely _ _ hr) (hinv _ hi)
      exact ⟨fun found ha => ih _ (hp _) (hu.1 _ (S.answers ha)), fun hf => ih _ (hp _) (hu.2 hf)⟩
  | transact ops next ih =>
      intro u hr hi
      have hu := h (S.table u) (hrely _ _ hr) (hinv _ hi)
      refine ⟨fun _ => ih _ (hp.2 _) (hu.1 (.inl trivial)), fun ha => ?_⟩
      have happly : S.table (u.apply (around ++ ops.map S.write)) = (S.table u).apply ops :=
        Slice.table_apply_around houtside
      obtain ⟨hg, hok, hlost⟩ := hu.2 (Slice.admits_of_around ha)
      refine ⟨⟨ops, hp.1, ha, rfl, happly ▸ hg⟩, ih _ (hp.2 _) ?_, fun hf => ih _ (hp.2 _) ?_⟩
      · rw [List.map_cons, happly]
        exact hok
      · rw [List.map_cons, happly]
        exact hlost hf

end RowStore
