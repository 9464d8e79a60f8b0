import Mathlib.Data.List.Nodup
import Mathlib.Data.List.Induction
import Mathlib.Data.List.Forall2

/-! # Dictionaries that keep the order of insertion

A key is stored once. Inserting under a stored key replaces the value where it
is; a new key comes last. -/

structure OrderedDict (K V : Type) where
  entries : List (K × V)
  nodup : (entries.map Prod.fst).Nodup

namespace OrderedDict

variable {K V W A : Type}

def empty : OrderedDict K V := ⟨[], List.nodup_nil⟩

def keys (d : OrderedDict K V) : List K := d.entries.map Prod.fst

def values (d : OrderedDict K V) : List V := d.entries.map Prod.snd

def mapValues (d : OrderedDict K V) (f : K → V → W) : OrderedDict K W where
  entries := d.entries.map fun e => (e.1, f e.1 e.2)
  nodup := by
    rw [List.map_map]
    exact d.nodup

variable [DecidableEq K]

def get? (d : OrderedDict K V) (k : K) : Option V :=
  (d.entries.find? fun e => e.1 = k).map Prod.snd

def getD (d : OrderedDict K V) (k : K) (default : V) : V := (d.get? k).getD default

def contains (d : OrderedDict K V) (k : K) : Bool := k ∈ d.keys

def insert (d : OrderedDict K V) (k : K) (v : V) : OrderedDict K V where
  entries :=
    if k ∈ d.keys then d.entries.map fun e => if e.1 = k then (k, v) else e
    else d.entries ++ [(k, v)]
  nodup := by
    split
    · have hkeys : (d.entries.map fun e => if e.1 = k then (k, v) else e).map Prod.fst =
          d.entries.map Prod.fst := by
        rw [List.map_map]
        refine List.map_congr_left fun e _ => ?_
        by_cases he : e.1 = k <;> simp [he]
      rw [hkeys]
      exact d.nodup
    · rename_i hk
      rw [List.map_append, List.map_singleton]
      exact List.Nodup.append d.nodup (List.nodup_singleton k)
        (List.disjoint_singleton.mpr hk)

/-- Insert all pairs in turn. -/
def ofPairs (pairs : List (K × V)) : OrderedDict K V :=
  pairs.foldl (fun d e => d.insert e.1 e.2) empty

@[simp] theorem get?_empty (k : K) : (empty : OrderedDict K V).get? k = none := rfl

theorem mem_keys_iff {d : OrderedDict K V} {k : K} : k ∈ d.keys ↔ (d.get? k).isSome := by
  simp [keys, get?]

@[simp] theorem contains_iff {d : OrderedDict K V} {k : K} : d.contains k = true ↔ k ∈ d.keys :=
  decide_eq_true_iff

@[simp] theorem contains_eq_false {d : OrderedDict K V} {k : K} : d.contains k = false ↔ k ∉ d.keys :=
  decide_eq_false_iff_not

theorem get?_eq_some {d : OrderedDict K V} {k : K} {v : V} :
    d.get? k = some v ↔ (k, v) ∈ d.entries := by
  constructor
  · intro h
    obtain ⟨e, hfound, rfl⟩ := Option.map_eq_some_iff.mp h
    have hkey : e.1 = k := by simpa using List.find?_some hfound
    subst hkey
    exact List.mem_of_find?_eq_some hfound
  · intro h
    unfold get?
    rw [Option.map_eq_some_iff]
    refine ⟨(k, v), ?_, rfl⟩
    have hsome : (d.entries.find? fun e => e.1 = k).isSome :=
      List.find?_isSome.mpr ⟨_, h, decide_eq_true rfl⟩
    obtain ⟨e, hfound⟩ := Option.isSome_iff_exists.mp hsome
    have hkey : e.1 = k := by simpa using List.find?_some hfound
    rw [hfound, List.inj_on_of_nodup_map d.nodup (List.mem_of_find?_eq_some hfound) h hkey]

theorem mem_values {d : OrderedDict K V} {v : V} : v ∈ d.values ↔ ∃ k, d.get? k = some v := by
  simp only [get?_eq_some]
  unfold values
  constructor
  · intro h
    obtain ⟨e, he, rfl⟩ := List.mem_map.mp h
    exact ⟨e.1, he⟩
  · rintro ⟨k, h⟩
    exact List.mem_map_of_mem h

theorem keys_insert (d : OrderedDict K V) (k : K) (v : V) :
    (d.insert k v).keys = if k ∈ d.keys then d.keys else d.keys ++ [k] := by
  unfold insert
  by_cases hk : k ∈ d.keys
  · simp only [hk, if_true]
    unfold keys
    rw [List.map_map]
    refine List.map_congr_left fun e _ => ?_
    by_cases he : e.1 = k <;> simp [he]
  · simp only [hk, if_false]
    simp [keys]

theorem isEmpty_insert (d : OrderedDict K V) (k : K) (v : V) : (d.insert k v).entries.isEmpty = false := by
  have hmem : k ∈ (d.insert k v).keys := by
    rw [keys_insert]
    split
    · assumption
    · exact List.mem_append_right _ (List.mem_singleton_self _)
  obtain ⟨e, he, -⟩ := List.mem_map.mp hmem
  exact List.isEmpty_eq_false_iff.mpr (List.ne_nil_of_mem he)

theorem mem_entries_insert {d : OrderedDict K V} {k : K} {v : V} {e : K × V}
    (h : e ∈ (d.insert k v).entries) : e = (k, v) ∨ e ∈ d.entries := by
  unfold insert at h
  by_cases hk : k ∈ d.keys
  · simp only [hk, if_true] at h
    obtain ⟨a, ha, rfl⟩ := List.mem_map.mp h
    by_cases hak : a.1 = k
    · rw [if_pos hak]
      exact .inl rfl
    · rw [if_neg hak]
      exact .inr ha
  · simp only [hk, if_false] at h
    rcases List.mem_append.mp h with h | h
    · exact .inr h
    · exact .inl (List.mem_singleton.mp h)

theorem get?_insert (d : OrderedDict K V) (k j : K) (v : V) :
    (d.insert k v).get? j = if j = k then some v else d.get? j := by
  by_cases hk : k ∈ d.keys
  · have hentries : (d.insert k v).entries =
        d.entries.map fun e => if e.1 = k then (k, v) else e := if_pos hk
    unfold get?
    rw [hentries]
    have hfind : ∀ es : List (K × V),
        ((es.map fun e => if e.1 = k then (k, v) else e).find? fun e => e.1 = j).map Prod.snd =
          if j = k then (es.find? fun e => e.1 = k).map fun _ => v
          else (es.find? fun e => e.1 = j).map Prod.snd := by
      intro es
      induction es with
      | nil => simp
      | cons e es ih =>
          by_cases hek : e.1 = k <;> by_cases hej : e.1 = j <;> by_cases hjk : j = k <;>
            simp_all [List.find?_cons, eq_comm]
    rw [hfind]
    have hsome : ((d.entries.find? fun e => e.1 = k).map fun _ => v) = some v := by
      obtain ⟨w, hw⟩ := Option.isSome_iff_exists.mp (mem_keys_iff.mp hk)
      obtain ⟨e, he, -⟩ := Option.map_eq_some_iff.mp hw
      rw [he]
      rfl
    rw [hsome]
  · have hentries : (d.insert k v).entries = d.entries ++ [(k, v)] := if_neg hk
    have hnone : d.get? k = none := Option.not_isSome_iff_eq_none.mp fun h => hk (mem_keys_iff.mpr h)
    unfold get? at hnone ⊢
    rw [hentries, List.find?_append]
    by_cases hjk : j = k
    · subst hjk
      rw [Option.map_eq_none_iff] at hnone
      simp [hnone]
    · cases hfound : d.entries.find? fun e => e.1 = j <;> simp [hjk, Ne.symm hjk]

theorem lookup_entries (d : OrderedDict K V) (k : K) : d.entries.lookup k = d.get? k := by
  unfold get?
  induction d.entries with
  | nil => rfl
  | cons e es ih =>
      obtain ⟨j, v⟩ := e
      rw [List.lookup_cons, List.find?_cons, ih]
      by_cases hjk : j = k
      · simp [hjk]
      · simp [hjk, beq_eq_false_iff_ne.mpr (Ne.symm hjk)]

theorem ofPairs_concat (pairs : List (K × V)) (e : K × V) :
    ofPairs (pairs ++ [e]) = (ofPairs pairs).insert e.1 e.2 := by
  simp [ofPairs]

/-- A key gets the value of the last item that has it. -/
theorem get?_ofPairs_map (items : List A) (key : A → K) (value : A → V) (k : K) :
    (ofPairs (items.map fun a => (key a, value a))).get? k =
      (items.reverse.find? fun a => key a = k).map value := by
  induction items using List.reverseRecOn with
  | nil => rfl
  | append_singleton items a ih =>
      rw [List.map_append, List.map_singleton, ofPairs_concat, get?_insert, ih,
        List.reverse_append, List.reverse_singleton, List.singleton_append, List.find?_cons]
      by_cases hk : k = key a
      · simp [hk]
      · simp [hk, Ne.symm hk]

/-- What is stored was one of the pairs. -/
theorem mem_of_mem_ofPairs {pairs : List (K × V)} {e : K × V}
    (h : e ∈ (ofPairs pairs).entries) : e ∈ pairs := by
  induction pairs using List.reverseRecOn with
  | nil => cases h
  | append_singleton pairs a ih =>
      rw [ofPairs_concat] at h
      rcases mem_entries_insert h with rfl | h
      · exact List.mem_append_right _ (List.mem_singleton_self _)
      · exact List.mem_append_left _ (ih h)

/-- What was one of the pairs has a value. -/
theorem isSome_ofPairs {pairs : List (K × V)} {e : K × V} (h : e ∈ pairs) : ((ofPairs pairs).get? e.1).isSome := by
  have hmap := get?_ofPairs_map pairs Prod.fst Prod.snd e.1
  rw [List.map_id' pairs] at hmap
  rw [hmap, Option.isSome_map, List.find?_isSome]
  exact ⟨e, List.mem_reverse.mpr h, decide_eq_true rfl⟩

theorem get?_mapValues (d : OrderedDict K V) (f : K → V → W) (k : K) :
    (d.mapValues f).get? k = (d.get? k).map (f k) := by
  have hfind : ∀ es : List (K × V),
      ((es.map fun e => (e.1, f e.1 e.2)).find? fun e => e.1 = k).map Prod.snd =
        ((es.find? fun e => e.1 = k).map Prod.snd).map (f k) := by
    intro es
    induction es with
    | nil => rfl
    | cons e es ih =>
        rw [List.map_cons, List.find?_cons, List.find?_cons]
        by_cases he : e.1 = k
        · simp [he]
        · simpa [he] using ih
  exact hfind d.entries

/-! ## Related dictionaries -/

/-- The same keys in the same order, with related values. -/
def Rel (R : V → W → Prop) (d : OrderedDict K V) (e : OrderedDict K W) : Prop :=
  List.Forall₂ (fun a b => a.1 = b.1 ∧ R a.2 b.2) d.entries e.entries

namespace Rel

variable {R : V → W → Prop} {d : OrderedDict K V} {e : OrderedDict K W}

omit [DecidableEq K] in
theorem keys_eq (h : Rel R d e) : d.keys = e.keys := by
  unfold Rel at h
  unfold keys
  generalize d.entries = ps at h
  generalize e.entries = qs at h
  induction h with
  | nil => rfl
  | cons hab _ ih => rw [List.map_cons, List.map_cons, hab.1, ih]

omit [DecidableEq K] in
theorem mem_left (h : Rel R d e) {a : K × V} (ha : a ∈ d.entries) :
    ∃ b ∈ e.entries, a.1 = b.1 ∧ R a.2 b.2 := by
  unfold Rel at h
  generalize d.entries = ps at h ha
  generalize e.entries = qs at h
  induction h with
  | nil => cases ha
  | cons hab _ ih =>
      rcases List.mem_cons.mp ha with rfl | ha
      · exact ⟨_, List.mem_cons_self .., hab⟩
      · obtain ⟨b, hb, hrest⟩ := ih ha
        exact ⟨b, List.mem_cons_of_mem _ hb, hrest⟩

omit [DecidableEq K] in
theorem mem_right (h : Rel R d e) {b : K × W} (hb : b ∈ e.entries) :
    ∃ a ∈ d.entries, a.1 = b.1 ∧ R a.2 b.2 := by
  unfold Rel at h
  generalize d.entries = ps at h
  generalize e.entries = qs at h hb
  induction h with
  | nil => cases hb
  | cons hab _ ih =>
      rcases List.mem_cons.mp hb with rfl | hb
      · exact ⟨_, List.mem_cons_self .., hab⟩
      · obtain ⟨a, ha, hrest⟩ := ih hb
        exact ⟨a, List.mem_cons_of_mem _ ha, hrest⟩

theorem get? (h : Rel R d e) {k : K} {v : V} (hv : d.get? k = some v) :
    ∃ w, e.get? k = some w ∧ R v w := by
  unfold Rel at h
  unfold OrderedDict.get? at hv ⊢
  generalize d.entries = ps at h hv
  generalize e.entries = qs at h
  induction h with
  | nil => cases hv
  | @cons a b _ _ hab _ ih =>
      rw [List.find?_cons] at hv ⊢
      by_cases ha : a.1 = k
      · simp only [ha, decide_true, Option.map_some, Option.some_inj] at hv
        simp only [← hab.1, ha, decide_true, Option.map_some]
        exact ⟨b.2, rfl, hv ▸ hab.2⟩
      · simp only [ha, decide_false] at hv
        simp only [← hab.1, ha, decide_false]
        exact ih hv

theorem get?_none (h : Rel R d e) {k : K} (hv : d.get? k = none) : e.get? k = none := by
  refine Option.not_isSome_iff_eq_none.mp fun hsome => ?_
  have hkey : k ∈ d.keys := h.keys_eq ▸ mem_keys_iff.mpr hsome
  rw [mem_keys_iff, hv] at hkey
  cases hkey

omit [DecidableEq K] in
theorem mapValues {V' W' : Type} {S : V' → W' → Prop} {f : K → V → V'} {g : K → W → W'}
    (h : Rel R d e) (hfg : ∀ k v w, R v w → S (f k v) (g k w)) :
    Rel S (d.mapValues f) (e.mapValues g) := by
  unfold Rel OrderedDict.mapValues
  rw [List.forall₂_map_left_iff, List.forall₂_map_right_iff]
  refine List.Forall₂.imp (fun a b hab => ⟨hab.1, ?_⟩) h
  rw [hab.1]
  exact hfg _ _ _ hab.2

theorem insert (h : Rel R d e) {k : K} {v : V} {w : W} (hvw : R v w) :
    Rel R (d.insert k v) (e.insert k w) := by
  have hkeys := h.keys_eq
  unfold Rel OrderedDict.insert
  by_cases hk : k ∈ e.keys
  · simp only [hkeys, hk, if_true]
    rw [List.forall₂_map_left_iff, List.forall₂_map_right_iff]
    refine List.Forall₂.imp (fun a b hab => ?_) h
    by_cases ha : a.1 = k
    · simp only [← hab.1, ha, if_true]
      exact ⟨trivial, hvw⟩
    · simp only [← hab.1, ha, if_false]
      exact ⟨trivial, hab.2⟩
  · simp only [hkeys, hk, if_false]
    exact List.rel_append h (.cons ⟨rfl, hvw⟩ .nil)

theorem ofPairs {ps : List (K × V)} {qs : List (K × W)}
    (h : List.Forall₂ (fun a b => a.1 = b.1 ∧ R a.2 b.2) ps qs) :
    Rel R (OrderedDict.ofPairs ps) (OrderedDict.ofPairs qs) := by
  have hfold : ∀ (d : OrderedDict K V) (e : OrderedDict K W), Rel R d e →
      Rel R (ps.foldl (fun d a => d.insert a.1 a.2) d) (qs.foldl (fun e b => e.insert b.1 b.2) e) := by
    induction h with
    | nil => exact fun _ _ h => h
    | @cons a b _ _ hab _ ih =>
        intro d e hde
        have hinsert : Rel R (d.insert a.1 a.2) (e.insert b.1 b.2) := by
          rw [hab.1]
          exact hde.insert hab.2
        exact ih _ _ hinsert
  exact hfold _ _ .nil

end Rel

end OrderedDict
