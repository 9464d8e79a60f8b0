import Stoa.Model.BillingEvents
import Stoa.Store.Solo

/-! # What an event does to the billing row

An event that is answered, alone and for the first time, rewrites the row of its
parent by its transition. -/

namespace Stoa.Subscription

open RowStore

/-! ## The parent of an event -/

/-- The event's object leads to the parent: it names it, or some object that is known to be
of the parent and none that is known to be of another. -/
def ProviderObject.Of (o : ProviderObject) (t : Table Key Row) (parent : String) : Prop :=
  o.parentIdFromProviderObject = some parent ∨
    o.parentIdFromProviderObject = none ∧ parent ≠ "" ∧
      (∀ id ∈ o.providerObjectIds, ∀ lookup, t.row (.providerLookup id.1 id.2) = some lookup →
        lookup.parentId = parent) ∧
      ∃ id ∈ o.providerObjectIds, (t.row (.providerLookup id.1 id.2)).isSome

/-- The lookups stay, or are of the parent. -/
def LookupsOf (parent : String) (t t' : Table Key Row) : Prop :=
  ∀ objectType objectId, t'.row (.providerLookup objectType objectId) =
      t.row (.providerLookup objectType objectId) ∨
    ∃ lookup, t'.row (.providerLookup objectType objectId) = some lookup ∧ lookup.parentId = parent

section

variable {t t' : Table Key Row} {parent : String} {o : ProviderObject} {e : ProviderEvent}

theorem ProviderObject.Of.keep (h : o.Of t parent) (hl : LookupsOf parent t t') : o.Of t' parent := by
  rcases h with h | ⟨hnone, hne, hall, id, hid, hsome⟩
  · exact .inl h
  · refine .inr ⟨hnone, hne, fun id hid lookup hlookup => ?_, id, hid, ?_⟩
    · rcases hl id.1 id.2 with hsame | ⟨lookup', hlookup', hparent⟩
      · exact hall id hid lookup (hsame.symm.trans hlookup)
      · cases hlookup'.symm.trans hlookup
        exact hparent
    · rcases hl id.1 id.2 with hsame | ⟨lookup', hlookup', -⟩
      · rw [hsame]
        exact hsome
      · rw [hlookup']
        rfl

theorem lookedUp_alone {ids : List (String × String)} (hne : parent ≠ "")
    (hall : ∀ id ∈ ids, ∀ lookup, t.row (.providerLookup id.1 id.2) = some lookup → lookup.parentId = parent)
    (hsome : ∃ id ∈ ids, (t.row (.providerLookup id.1 id.2)).isSome) :
    (ProviderEvent.lookedUp ids).run.alone t = (.ok (some parent), t) := by
  induction ids with
  | nil => simp at hsome
  | cons id ids ih =>
      obtain ⟨objectType, objectId⟩ := id
      refine RowStore.Handler.alone_get_bind.trans ?_
      cases hrow : t.row (.providerLookup objectType objectId) with
      | none =>
          refine ih (fun id hid => hall id (List.mem_cons_of_mem _ hid)) ?_
          obtain ⟨id, hid, hlookup⟩ := hsome
          rcases List.mem_cons.mp hid with rfl | hid
          · simp [hrow] at hlookup
          · exact ⟨id, hid, hlookup⟩
      | some lookup =>
          have hparent := hall _ (List.mem_cons_self ..) lookup hrow
          simp only [hparent, ne_eq, hne, not_false_eq_true, if_true]
          rfl

theorem resolveParent_alone (h : e.object.Of t parent) :
    e.resolveParent.run.alone t = (.ok (some parent), t) := by
  unfold ProviderEvent.resolveParent
  rcases h with h | ⟨hnone, hne, hall, hsome⟩
  · rw [h]
    rfl
  · rw [hnone]
    refine RowStore.Handler.alone_bind_ok (lookedUp_alone hne hall hsome) |>.trans ?_
    rfl

theorem ProviderObject.Of.truthy (h : o.Of t parent) : truthy (some parent) = some parent := by
  rcases h with h | ⟨-, hne, -⟩
  · unfold parentIdFromProviderObject Subscription.truthy at h
    have hfilter := (Option.filter_eq_some_iff.mp h).2
    simpa [Subscription.truthy, Option.filter] using hfilter
  · simp [Subscription.truthy, Option.filter, hne]

/-! ## The parent's profile -/

theorem requireParent_alone {profile : ProfileRow} {u : Table Key Row}
    (h : (requireParent parent).run.alone t = (.ok profile, u)) :
    u = t ∧ t.row (.profile parent) = some profile := by
  have hread := RowStore.Handler.alone_get_bind.symm.trans h
  cases hrow : t.row (.profile parent) with
  | none =>
      rw [hrow] at hread
      cases hread
  | some stored =>
      rw [hrow] at hread
      dsimp only at hread
      split at hread
      · cases hread
        exact ⟨rfl, rfl⟩
      · cases hread

/-- The writes to the profile, and what they are conditioned on, hold in the table that was read. -/
theorem profileOperations_alone {transition : BillingTransition} {existing : BillingRow}
    {ops : List (Write Key Row)} {u : Table Key Row}
    (h : (ProviderEvent.profileOperations parent transition existing).run.alone t = (.ok ops, u)) :
    u = t ∧ (ops.map Write.key = [] ∨ ops.map Write.key = [.accountFence parent, .profile parent]) ∧
      ∀ w ∈ ops, w.condition (t.row w.key) = true := by
  unfold ProviderEvent.profileOperations at h
  split at h
  · obtain ⟨profile, v, hparent, hrest⟩ := RowStore.Handler.alone_bind_eq_ok h
    obtain ⟨rfl, hprofile⟩ := requireParent_alone hparent
    have hread := RowStore.Handler.alone_get_bind.symm.trans hrest
    split at hread
    · cases hread
    · rename_i generation hfence
      split at hread
      · cases hread
      · cases hread
        refine ⟨rfl, .inr rfl, fun w hw => ?_⟩
        rcases List.mem_pair.mp hw with rfl | rfl
        · exact fence_generation hfence
        · simp [Write.modify, hprofile]
  · cases h
    exact ⟨rfl, .inl rfl, by simp⟩

/-! ## The transaction -/

theorem map_fst_filterMap {l : List (String × Option String)} :
    ((l.filterMap fun (objectType, id) => id.map (objectType, ·)).map Prod.fst).Sublist (l.map Prod.fst) := by
  induction l with
  | nil => exact List.Sublist.refl _
  | cons entry l ih =>
      obtain ⟨objectType, id⟩ := entry
      cases id with
      | none => exact ih.cons _
      | some id => exact ih.cons_cons _

theorem providerObjectIds_nodup : (o.providerObjectIds.map Prod.fst).Nodup :=
  map_fst_filterMap.nodup (by simp)

variable {transition : BillingTransition} {existing updated : BillingRow} {profileOps : List (Write Key Row)}

theorem lookupWrites_keys : (e.lookupWrites parent updated).map Write.key =
    e.object.providerObjectIds.map fun id => .providerLookup id.1 id.2 := by
  simp [ProviderEvent.lookupWrites, Function.comp_def, Write.put]

theorem mem_lookupWrites {w : Write Key Row} (h : w ∈ e.lookupWrites parent updated) :
    w.condition (t.row w.key) = true ∧ ∃ objectType objectId lookup,
      w = .put (.providerLookup objectType objectId) lookup (fun _ => true) ∧ lookup.parentId = parent := by
  obtain ⟨id, -, rfl⟩ := List.mem_map.mp h
  exact ⟨rfl, _, _, _, rfl, rfl⟩

theorem operations_nodup
    (hprofile : profileOps.map Write.key = [] ∨ profileOps.map Write.key = [.accountFence parent, .profile parent]) :
    ((e.operations parent transition existing updated profileOps).map Write.key).Nodup := by
  have hlookups : ((e.lookupWrites parent updated).map Write.key).Nodup := by
    rw [lookupWrites_keys]
    refine List.Nodup.of_map (fun k => match k with | .providerLookup objectType _ => objectType | _ => "") ?_
    simpa [Function.comp_def] using providerObjectIds_nodup (o := e.object)
  have hkind : ∀ k ∈ (e.lookupWrites parent updated).map Write.key, ∃ objectType objectId,
      k = .providerLookup objectType objectId := by
    rw [lookupWrites_keys]
    intro k hk
    obtain ⟨id, -, rfl⟩ := List.mem_map.mp hk
    exact ⟨_, _, rfl⟩
  have hown : ∀ k ∈ profileOps.map Write.key, k = .accountFence parent ∨ k = .profile parent := by
    rcases hprofile with h | h <;> simp [h]
  have hrest : (((e.lookupWrites parent updated) ++ profileOps).map Write.key).Nodup := by
    rw [List.map_append, List.nodup_append]
    refine ⟨hlookups, ?_, fun k hk k' hk' => ?_⟩
    · rcases hprofile with h | h <;> simp [h]
    · obtain ⟨objectType, objectId, rfl⟩ := hkind k hk
      rcases hown k' hk' with rfl | rfl <;> simp
  have hothers : ∀ k ∈ ((e.lookupWrites parent updated) ++ profileOps).map Write.key,
      k ≠ .providerEvent e.eventId ∧ k ≠ .billing parent ∧ k ≠ .billingEvent parent e.now e.eventId := by
    intro k hk
    rw [List.map_append, List.mem_append] at hk
    rcases hk with hk | hk
    · obtain ⟨objectType, objectId, rfl⟩ := hkind k hk
      simp
    · rcases hown k hk with rfl | rfl <;> simp
  simp only [ProviderEvent.operations, List.cons_append, List.nil_append, List.map_cons, List.nodup_cons,
    List.mem_cons, not_or]
  refine ⟨⟨by simp [Write.putNew, Write.put], by simp [Write.putNew, Write.put], fun h => (hothers _ h).1 rfl⟩,
    ⟨by simp [Write.putNew, Write.put], fun h => (hothers _ h).2.1 rfl⟩, fun h => (hothers _ h).2.2 rfl, hrest⟩

theorem operations_admits (hunseen : t.row (.providerEvent e.eventId) = none)
    (hevent : t.row (.billingEvent parent e.now e.eventId) = none)
    (hkeys : profileOps.map Write.key = [] ∨ profileOps.map Write.key = [.accountFence parent, .profile parent])
    (hprofile : ∀ w ∈ profileOps, w.condition (t.row w.key) = true) :
    t.Admits (e.operations parent transition existing updated profileOps) := by
  refine ⟨operations_nodup hkeys, fun w hw => ?_⟩
  simp only [ProviderEvent.operations, List.cons_append, List.nil_append, List.mem_cons, List.mem_append] at hw
  rcases hw with rfl | rfl | rfl | hw | hw
  · simp [Write.putNew, Write.put, hunseen]
  · rfl
  · simp [Write.putNew, Write.put, hevent]
  · exact (mem_lookupWrites hw).1
  · exact hprofile w hw

/-! ## One event -/

/-- The billing row of the parent is rewritten, and the event is noted under an id. -/
structure Rewritten (parent id : String) (updated : BillingRow) (t t' : Table Key Row) : Prop where
  billing : t'.row (.billing parent) = some updated
  lookups : LookupsOf parent t t'
  events : ∀ id', id' ≠ id → t'.row (.providerEvent id') = t.row (.providerEvent id')
  billingEvents : ∀ at_ id', id' ≠ id → t'.row (.billingEvent parent at_ id') = t.row (.billingEvent parent at_ id')

theorem operations_rewritten
    (ha : t.Admits (e.operations parent transition existing updated profileOps))
    (hkeys : profileOps.map Write.key = [] ∨ profileOps.map Write.key = [.accountFence parent, .profile parent]) :
    Rewritten parent e.eventId updated t (t.apply (e.operations parent transition existing updated profileOps)) := by
  have hmem : ∀ w ∈ e.operations parent transition existing updated profileOps,
      w.key = .providerEvent e.eventId ∨ w.key = .billing parent ∨ w.key = .billingEvent parent e.now e.eventId ∨
        w ∈ e.lookupWrites parent updated ∨ w.key = .accountFence parent ∨ w.key = .profile parent := by
    intro w hw
    simp only [ProviderEvent.operations, List.cons_append, List.nil_append, List.mem_cons, List.mem_append] at hw
    rcases hw with rfl | rfl | rfl | hw | hw
    · exact .inl rfl
    · exact .inr (.inl rfl)
    · exact .inr (.inr (.inl rfl))
    · exact .inr (.inr (.inr (.inl hw)))
    · have hkey := List.mem_map_of_mem (f := Write.key) hw
      rcases hkeys with h | h
      · simp [h] at hkey
      · rw [h] at hkey
        exact .inr (.inr (.inr (.inr (List.mem_pair.mp hkey))))
  constructor
  · exact t.row_apply_of_mem (w := .put (.billing parent) updated fun _ => true) ha.1
      (by simp [ProviderEvent.operations])
  · intro objectType objectId
    by_cases hwritten : ∃ w ∈ e.lookupWrites parent updated, w.key = .providerLookup objectType objectId
    · obtain ⟨w, hw, hkey⟩ := hwritten
      obtain ⟨-, objectType', objectId', lookup, rfl, hparent⟩ := mem_lookupWrites (t := t) hw
      cases hkey
      refine .inr ⟨lookup, t.row_apply_of_mem (w := .put _ lookup fun _ => true) ha.1 ?_, hparent⟩
      simp only [ProviderEvent.operations, List.cons_append, List.nil_append, List.mem_cons, List.mem_append]
      exact .inr (.inr (.inr (.inl hw)))
    · refine .inl (t.row_apply_of_notMem _ _ fun w hw he => ?_)
      rcases hmem w hw with h | h | h | h | h | h
      · cases he.trans h
      · cases he.trans h
      · cases he.trans h
      · exact hwritten ⟨w, h, he.symm⟩
      · cases he.trans h
      · cases he.trans h
  · intro id hne
    refine t.row_apply_of_notMem _ _ fun w hw he => ?_
    rcases hmem w hw with h | h | h | h | h | h
    · exact hne (Key.providerEvent.inj (he.trans h))
    · cases he.trans h
    · cases he.trans h
    · obtain ⟨-, objectType, objectId, lookup, rfl, -⟩ := mem_lookupWrites (t := t) h
      cases he
    · cases he.trans h
    · cases he.trans h
  · intro at_ id hne
    refine t.row_apply_of_notMem _ _ fun w hw he => ?_
    rcases hmem w hw with h | h | h | h | h | h
    · cases he.trans h
    · cases he.trans h
    · exact hne (Key.billingEvent.inj (he.trans h)).2.2
    · obtain ⟨-, objectType, objectId, lookup, rfl, -⟩ := mem_lookupWrites (t := t) h
      cases he
    · cases he.trans h
    · cases he.trans h

/-- An event that is answered, alone and for the first time, rewrites the row by its transition. -/
theorem handleVerifiedProviderEvent_alone {kind : ProviderEventType} {answer : ProviderEvent.Projection}
    {u : Table Key Row} (hkind : e.eventType = kind.value) (hof : e.object.Of t parent)
    (hexisting : t.row (.billing parent) = some existing)
    (hunseen : t.row (.providerEvent e.eventId) = none)
    (hevent : t.row (.billingEvent parent e.now e.eventId) = none)
    (h : (handleVerifiedProviderEvent e).run.alone t = (.ok answer, u)) :
    ∃ transition, billingTransition kind e.object existing e.refundNow = .ok transition ∧
      Rewritten parent e.eventId (e.appliedItem parent transition existing) t u := by
  unfold handleVerifiedProviderEvent at h
  split at h
  · cases h
  have hfind : ProviderEventType.all.find? (·.value = e.eventType) = some kind := by
    rw [hkind]
    cases kind <;> decide
  rw [hfind] at h
  obtain ⟨parent', v, hresolve, hrest⟩ := RowStore.Handler.alone_bind_eq_ok h
  cases (resolveParent_alone hof).symm.trans hresolve
  rw [hof.truthy] at hrest
  have hfor : (e.handleFor parent kind).run.alone t = (.ok answer, u) := hrest
  obtain ⟨profile, w, hparent, hbody⟩ := RowStore.Handler.alone_bind_eq_ok hfor
  obtain ⟨rfl, -⟩ := requireParent_alone hparent
  have hread := RowStore.Handler.alone_get_bind.symm.trans hbody
  rw [hexisting] at hread
  have hseen := RowStore.Handler.alone_get_bind.symm.trans hread
  rw [hunseen] at hseen
  obtain ⟨transition, w', htransition, happly⟩ := RowStore.Handler.alone_bind_eq_ok hseen
  have hok : billingTransition kind e.object existing e.refundNow = .ok transition ∧ w' = w := by
    cases hx : billingTransition kind e.object existing e.refundNow with
    | error x =>
        rw [Option.getD_some, hx] at htransition
        cases htransition
    | ok x =>
        rw [Option.getD_some, hx] at htransition
        cases htransition
        exact ⟨rfl, rfl⟩
  obtain ⟨hok, rfl⟩ := hok
  refine ⟨transition, hok, ?_⟩
  obtain ⟨updated, w'', hupdated, hanswer⟩ := RowStore.Handler.alone_bind_eq_ok happly
  cases hanswer
  obtain ⟨ops, w''', hops, hsubmit⟩ := RowStore.Handler.alone_bind_eq_ok hupdated
  obtain ⟨rfl, hkeys, hconditions⟩ := profileOperations_alone hops
  have hcommit := RowStore.Handler.alone_submit_bind.symm.trans hsubmit
  rw [Option.getD_some, if_pos (operations_admits hunseen hevent hkeys hconditions)] at hcommit
  cases hcommit
  exact operations_rewritten (operations_admits hunseen hevent hkeys hconditions) hkeys

end

end Stoa.Subscription
