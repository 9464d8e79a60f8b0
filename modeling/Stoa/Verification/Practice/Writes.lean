import Stoa.Model.Practice
import Stoa.Store.Auxiliary

/-! # What the practice transactions do

Both transactions check the fence and write one row; every other row stays. -/

namespace Stoa.Practice

open RowStore

variable {F : Type} {t : Table Key (Row F)} {k : PracticeKey} {item : Item F k} {ownerId : String}
  {generation : ℤ}

theorem putTransaction_stores (h : t.Admits (putTransaction k item ownerId generation)) :
    t.row (.practice k) = none ∧ (t.apply (putTransaction k item ownerId generation)).row (.practice k) =
      some ⟨ownerId, generation, item⟩ := by
  refine ⟨?_, ?_⟩
  · have hcondition := h.2 _ (List.mem_cons_of_mem _ (List.mem_cons_self ..))
    exact Option.isNone_iff_eq_none.mp hcondition
  · exact Table.row_apply_of_mem t h.1 (List.mem_cons_of_mem _ (List.mem_cons_self ..))

theorem putTransaction_others {j : Key} (hj : j ≠ .practice k) :
    (t.apply (putTransaction k item ownerId generation)).row j = t.row j := by
  refine Table.AgreesOn.apply_frame (P := fun l => l ≠ Key.practice k) t (fun w hw => ?_) j hj
  rcases List.mem_cons.mp hw with rfl | hw
  · exact .inl rfl
  · cases List.mem_singleton.mp hw
    exact .inr (not_not.mpr rfl)

variable {updates : Item F k → Item F k} {condition : Item F k → Bool}

theorem updateTransaction_stores
    (h : t.Admits (updateTransaction k updates condition ownerId generation)) :
    ∃ row : Owned (Item F k), t.row (.practice k) = some row ∧ row.ownerId = ownerId ∧
      condition row.item = true ∧
        (t.apply (updateTransaction k updates condition ownerId generation)).row (.practice k) =
          some { row with item := updates row.item } := by
  have hcondition := h.2 _ (List.mem_cons_of_mem _ (List.mem_cons_self ..))
  obtain ⟨row, hrow, hholds⟩ := (Option.any_eq_true _ _).mp hcondition
  obtain ⟨howner, hitem⟩ := of_decide_eq_true hholds
  refine ⟨row, hrow, howner, hitem, ?_⟩
  exact (Table.row_apply_of_mem t h.1 (List.mem_cons_of_mem _ (List.mem_cons_self ..))).trans
    (congrArg (Option.map _) hrow)

theorem updateTransaction_others {j : Key} (hj : j ≠ .practice k) :
    (t.apply (updateTransaction k updates condition ownerId generation)).row j = t.row j := by
  refine Table.AgreesOn.apply_frame (P := fun l => l ≠ Key.practice k) t (fun w hw => ?_) j hj
  rcases List.mem_cons.mp hw with rfl | hw
  · exact .inl rfl
  · cases List.mem_singleton.mp hw
    exact .inr (not_not.mpr rfl)

theorem readOnly_writeGeneration : (writeGeneration ownerId : Handler F ℤ).run.ReadOnly := by
  refine RowStore.Handler.readOnly_bind RowStore.Handler.readOnly_get fun fence => ?_
  split <;> trivial

/-- What `save` submits. -/
def Saves (k : PracticeKey) (item : Item F k) (ownerId : String) (ops : List (Write Key (Row F))) :
    Prop :=
  ∃ generation, ops = putTransaction k item ownerId generation ∨
    ops = updateTransaction k (fun _ => item) (fun _ => true) ownerId generation

theorem Saves.stores {ops : List (Write Key (Row F))} (h : Saves k item ownerId ops)
    (ha : t.Admits ops) :
    ((t.apply ops).row (.practice k)).map Owned.item = some item := by
  obtain ⟨generation, rfl | rfl⟩ := h
  · exact congrArg (Option.map Owned.item) (putTransaction_stores ha).2
  · obtain ⟨row, -, -, -, hrow⟩ := updateTransaction_stores ha
    exact congrArg (Option.map Owned.item) hrow

theorem Saves.others {ops : List (Write Key (Row F))} (h : Saves k item ownerId ops) {j : Key}
    (hj : j ≠ .practice k) : (t.apply ops).row j = t.row j := by
  obtain ⟨generation, rfl | rfl⟩ := h
  · exact putTransaction_others hj
  · exact updateTransaction_others hj

/-- A transaction of `save` writes its row. -/
theorem Saves.names {ops : List (Write Key (Row F))} (h : Saves k item ownerId ops) :
    ∃ w ∈ ops, w.key = .practice k := by
  obtain ⟨generation, rfl | rfl⟩ := h
  · exact ⟨_, List.mem_cons_of_mem _ (List.mem_cons_self ..), rfl⟩
  · exact ⟨_, List.mem_cons_of_mem _ (List.mem_cons_self ..), rfl⟩

theorem Saves.key_of_mem {ops : List (Write Key (Row F))} (h : Saves k item ownerId ops)
    {w : Write Key (Row F)} (hw : w ∈ ops) : w.key = .accountFence ownerId ∨ w.key = .practice k := by
  obtain ⟨generation, rfl | rfl⟩ := h
  all_goals
    rcases List.mem_cons.mp hw with rfl | hw
    · exact .inl rfl
    · cases List.mem_singleton.mp hw
      exact .inr rfl

theorem submits_transact_bind {α : Type} {T : List (Write Key (Row F)) → Prop}
    {ops : List (Write Key (Row F))} {f : Unit → Handler F α} (hops : T ops)
    (hf : (f ()).run.Submits T) : (transact ops >>= f).run.Submits T := by
  refine ⟨hops, fun done => ?_⟩
  cases done
  · trivial
  · exact hf

theorem submits_save : (save k item ownerId).run.Submits (Saves k item ownerId) := by
  refine RowStore.Handler.submits_bind readOnly_writeGeneration.submits fun generation => ?_
  refine RowStore.Handler.submits_bind RowStore.Handler.submits_get fun stored => ?_
  cases stored with
  | none => exact submits_transact_bind ⟨generation, .inl rfl⟩ trivial
  | some row => exact submits_transact_bind ⟨generation, .inr rfl⟩ trivial

section

variable {X C : Type} {F' : Access Key (Row F)} {Φ : View Key (Row F) C → (ℕ → Option X) → Prop} {i : ℕ} {c : C}

/-- A transaction takes the call from one value to another, when it commits. -/
theorem keeps_transact_of {α : Type} {Cond : Program Key (Row F) (Except Raised α) → Table Key (Row F) → Prop}
    {Q : Except Raised α → X → Prop} {x y : X} {ops : List (Write Key (Row F))} {a : α}
    (hrefused : ∀ e, Q (.error e) x) (hlost : ∀ e, Q (.error e) y) (hok : Q (.ok a) y)
    (hcommit : ∀ next w g, Φ w g → g i = some x → w.table.Admits ops →
      Cond (.transact ops next) w.table → Φ (w.commit i c ops) (Function.update g i (some y))) :
    (transact ops >>= fun _ => pure a : Handler F α).run.Keeps F' Φ Cond i c Q x := by
  intro w g hg hi
  refine ⟨fun _ => .same hg hi (hrefused _), fun ha hc => ?_⟩
  have hw := hcommit _ w g hg hi ha hc
  exact ⟨⟨y, hw, hok⟩, fun _ => ⟨y, hw, hlost _⟩⟩

theorem keeps_transact {α : Type} {Cond : Program Key (Row F) (Except Raised α) → Table Key (Row F) → Prop}
    {Q : Except Raised α → X → Prop} {x y : X} {ops : List (Write Key (Row F))} {a : α}
    (hraised : ∀ e z, Q (.error e) z) (hok : Q (.ok a) y)
    (hcommit : ∀ next w g, Φ w g → g i = some x → w.table.Admits ops →
      Cond (.transact ops next) w.table → Φ (w.commit i c ops) (Function.update g i (some y))) :
    (transact ops >>= fun _ => pure a : Handler F α).run.Keeps F' Φ Cond i c Q x :=
  keeps_transact_of (hraised · x) (hraised · y) hok hcommit

/-- What is saved takes the call from one value to another. -/
theorem keeps_save {Cond : Program Key (Row F) (Except Raised (Owned (Item F k))) →
      Table Key (Row F) → Prop} {Q : Except Raised (Owned (Item F k)) → X → Prop} {x y : X}
    (hraised : ∀ e z, Q (.error e) z) (hok : ∀ a, Q (.ok a) y)
    (hcommit : ∀ ops next w g, Saves k item ownerId ops → Φ w g → g i = some x →
      w.table.Admits ops → Cond (.transact ops next) w.table →
        Φ (w.commit i c ops) (Function.update g i (some y))) :
    (save k item ownerId).run.Keeps F' Φ Cond i c Q x := by
  refine RowStore.Handler.keeps_readOnly_bind readOnly_writeGeneration (fun generation => ?_)
    fun e => hraised e x
  refine RowStore.Handler.keeps_get_bind (fun stored => ?_) (hraised _ x)
  cases stored with
  | none =>
      exact keeps_transact hraised (hok _) fun next w g => hcommit _ next w g ⟨generation, .inl rfl⟩
  | some row =>
      exact keeps_transact hraised (hok _) fun next w g => hcommit _ next w g ⟨generation, .inr rfl⟩

/-- So does what is put once. -/
theorem keeps_putOnce_of {Cond : Program Key (Row F) (Except Raised (Owned (Item F k))) →
      Table Key (Row F) → Prop} {Q : Except Raised (Owned (Item F k)) → X → Prop} {x y : X}
    (hrefused : ∀ e, Q (.error e) x) (hlost : ∀ e, Q (.error e) y) (hok : ∀ a, Q (.ok a) y)
    (hcommit : ∀ generation next w g, Φ w g → g i = some x →
      w.table.Admits (putTransaction k item ownerId generation) →
      Cond (.transact (putTransaction k item ownerId generation) next) w.table →
        Φ (w.commit i c (putTransaction k item ownerId generation))
          (Function.update g i (some y))) :
    (putOnce k item ownerId).run.Keeps F' Φ Cond i c Q x :=
  RowStore.Handler.keeps_readOnly_bind readOnly_writeGeneration
    (fun generation => keeps_transact_of hrefused hlost (hok _) (hcommit generation)) hrefused

theorem keeps_putOnce {Cond : Program Key (Row F) (Except Raised (Owned (Item F k))) →
      Table Key (Row F) → Prop} {Q : Except Raised (Owned (Item F k)) → X → Prop} {x y : X}
    (hraised : ∀ e z, Q (.error e) z) (hok : ∀ a, Q (.ok a) y)
    (hcommit : ∀ generation next w g, Φ w g → g i = some x →
      w.table.Admits (putTransaction k item ownerId generation) →
      Cond (.transact (putTransaction k item ownerId generation) next) w.table →
        Φ (w.commit i c (putTransaction k item ownerId generation))
          (Function.update g i (some y))) :
    (putOnce k item ownerId).run.Keeps F' Φ Cond i c Q x :=
  keeps_putOnce_of (hraised · x) (hraised · y) hok hcommit

end

/-- What is saved alone meets a condition on its one transaction. -/
theorem aloneMeets_save {Cond : Program Key (Row F) (Except Raised (Owned (Item F k))) →
      Table Key (Row F) → Prop}
    (h : ∀ ops next, Saves k item ownerId ops → Cond (.transact ops next) t) :
    (save k item ownerId).run.AloneMeets Cond t := by
  refine RowStore.Handler.aloneMeets_readOnly_bind readOnly_writeGeneration fun generation => ?_
  refine RowStore.Handler.aloneMeets_get_bind ?_
  cases t.row (.practice k) with
  | none => exact ⟨fun _ => ⟨h _ _ ⟨generation, .inl rfl⟩, trivial⟩, fun _ => trivial⟩
  | some row => exact ⟨fun _ => ⟨h _ _ ⟨generation, .inr rfl⟩, trivial⟩, fun _ => trivial⟩

/-! ## Writes that run alone -/

section

variable {α : Type} {f : ℤ → Handler F α} {ops : List (Write Key (Row F))} {rest : Unit → Handler F α}

theorem alone_writeGeneration_bind
    (h : requireActiveAccountFence (t.row (.accountFence ownerId)) none = some generation) :
    (writeGeneration ownerId >>= f).run.alone t = (f generation).run.alone t := by
  refine RowStore.Handler.alone_bind_ok (y := writeGeneration ownerId) ?_
  refine RowStore.Handler.alone_get_bind.trans ?_
  rw [h]
  rfl

theorem alone_transact_bind (h : t.Admits ops) :
    (transact ops >>= rest).run.alone t = (rest ()).run.alone (t.apply ops) := by
  refine RowStore.Handler.alone_bind_ok (y := transact ops) ?_
  exact if_pos h

end

theorem nodup_keys {k : PracticeKey} {owner : String} :
    [Key.accountFence owner, Key.practice k].Nodup :=
  List.nodup_cons.mpr ⟨by simp, List.nodup_singleton _⟩

theorem putTransaction_admits
    (hfence : requireActiveAccountFence (t.row (.accountFence ownerId)) none = some generation)
    (hnone : t.row (.practice k) = none) : t.Admits (putTransaction k item ownerId generation) := by
  refine ⟨nodup_keys, List.forall_mem_cons.mpr ⟨fence_generation hfence, ?_⟩⟩
  exact List.forall_mem_singleton.mpr (Option.isNone_iff_eq_none.mpr hnone)

theorem updateTransaction_admits {row : Owned (Item F k)}
    (hfence : requireActiveAccountFence (t.row (.accountFence ownerId)) none = some generation)
    (hrow : t.row (.practice k) = some row) (howner : row.ownerId = ownerId)
    (hcondition : condition row.item = true) :
    t.Admits (updateTransaction k updates condition ownerId generation) := by
  refine ⟨nodup_keys, List.forall_mem_cons.mpr ⟨fence_generation hfence, ?_⟩⟩
  refine List.forall_mem_singleton.mpr ((Option.any_eq_true _ _).mpr ⟨row, hrow, ?_⟩)
  exact decide_eq_true ⟨howner, hcondition⟩

theorem alone_putOnce
    (hfence : requireActiveAccountFence (t.row (.accountFence ownerId)) none = some generation)
    (hnone : t.row (.practice k) = none) :
    (putOnce k item ownerId).run.alone t =
      (.ok ⟨ownerId, generation, item⟩, t.apply (putTransaction k item ownerId generation)) :=
  (alone_writeGeneration_bind hfence).trans
    (alone_transact_bind (putTransaction_admits hfence hnone))

end Stoa.Practice
