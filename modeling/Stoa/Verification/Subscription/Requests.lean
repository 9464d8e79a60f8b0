import Stoa.Model.SubscriptionRequests
import Stoa.Verification.Subscription.Handlers
import Stoa.Store.Solo

/-! # One open request per parent

The guard is created under a condition of its own, but removed without one: that
it still names the request that ends rests on the requests and the guards
together. -/

namespace Stoa.Subscription

open RowStore

/-! ## What every call may rely on -/

/-- Requests keep their parent, and their status once they have ended; events stay. -/
structure RequestsKept (t u : Table Key Row) : Prop where
  request : ∀ id row, t.row (.request id) = some row → ∃ row', u.row (.request id) = some row' ∧
    row'.parentId = row.parentId ∧ (row.status.isTerminal → row'.status = row.status)
  event : ∀ id at_ eventId event, t.row (.requestEvent id at_ eventId) = some event →
    u.row (.requestEvent id at_ eventId) = some event

theorem RequestsKept.refl (t : Table Key Row) : RequestsKept t t where
  request := fun _ row hrow => ⟨row, hrow, rfl, fun _ => rfl⟩
  event := fun _ _ _ _ hevent => hevent

theorem RequestsKept.trans {t u v : Table Key Row} (h : RequestsKept t u) (h' : RequestsKept u v) :
    RequestsKept t v where
  request := by
    intro id row hrow
    obtain ⟨row', hrow', hparent, hstatus⟩ := h.request id row hrow
    obtain ⟨row'', hrow'', hparent', hstatus'⟩ := h'.request id row' hrow'
    refine ⟨row'', hrow'', hparent'.trans hparent, fun hterminal => ?_⟩
    have hsame := hstatus hterminal
    exact (hstatus' (hsame ▸ hterminal)).trans hsame
  event := fun id at_ eventId event hevent => h'.event _ _ _ _ (h.event id at_ eventId event hevent)

theorem RequestsKept.of_agrees {t u : Table Key Row} (h : u.AgreesOn IsRequestRow t) :
    RequestsKept t u where
  request := fun id row hrow => ⟨row, (h (.request id) trivial).trans hrow, rfl, fun _ => rfl⟩
  event := fun id at_ eventId _ hevent => (h (.requestEvent id at_ eventId) trivial).trans hevent

def requests : Interference Key Row where
  Inv := fun _ => True
  Rely := RequestsKept
  refl := .refl
  trans := .trans

/-! ## What the calls commit -/

/-- The transactions of a call, on a table that may admit them. -/
inductive RequestCall.Transaction (t : Table Key Row) : RequestCall → List (Write Key Row) → Prop where
  | created (r : CreateRequest) (requestType : RequestType) (current target : SubscriptionTier) :
      Transaction t (.create r) (r.operations requestType current target)
  | updated (r : ChangeRequest) (given : String) (item : RequestRow) (status : RequestStatus)
      (seen : requests.Seen (.request r.requestId) (some item) t)
      (allowed : requireTransition item.status status = .ok ()) :
      Transaction t (.update r given) (updateRequestOperations item (r.updates status)
        (r.event status (r.updates status) (r.changes status)) item.status status.isTerminal)
  | applied (r : ChangeRequest) (item : RequestRow) (tier : SubscriptionTier)
      (profileOperations : List (Write Key Row))
      (seen : requests.Seen (.request r.requestId) (some item) t)
      (profile : ∀ w ∈ profileOperations, ¬ IsRequestRow w.key) :
      Transaction t (.apply r) (r.applyOperations item tier profileOperations)
  | overridden (r : ChangeRequest) (key : Key) (item : Row key) (other : ¬ IsRequestRow key) :
      Transaction t (.apply r) [.put key item fun _ => true]

def RequestCall.Move (c : RequestCall) (t t' : Table Key Row) : Prop :=
  ∃ ops, c.Transaction t ops ∧ t.Admits ops ∧ t' = t.apply ops

section

variable {F : Faults} {own : List (Table Key Row × Table Key Row)} {t : Table Key Row}
  {G : Table Key Row → Table Key Row → Prop}

theorem getRequestItem_quiet {α : Type} {id : String} {f : RequestRow → Handler α}
    (h : ∀ item u, requests.Rely t u → requests.Seen (.request id) (some item) u →
      (f item).run.Safe F requests G (Quiet _) own u) :
    (getRequestItem id >>= f).run.Safe F requests G (Quiet _) own t := by
  refine RowStore.Handler.safe_bind.mpr (RowStore.Handler.safe_get_bind fun u hr hi => ⟨?_, trivial⟩)
  cases hrow : u.row (.request id) with
  | none => trivial
  | some item => exact h item u hr ⟨u, hi, hrow, requests.refl u⟩

theorem listEvents_quiet {id : String} {α : Type} {f : List EventRow → Handler α}
    (h : ∀ events u, (f events).run.Safe F requests G (Quiet _) own u) :
    (listEvents id >>= f).run.Safe F requests G (Quiet _) own t :=
  RowStore.Handler.safe_bind.mpr
    (RowStore.Handler.safe_list_bind fun u _ _ => ⟨fun _ _ => h _ u, trivial⟩)

theorem changed_quiet {item : RequestRow} {updates : Updates} {event : EventRow} :
    (changed item updates event).run.Safe F requests G (Quiet _) own t :=
  listEvents_quiet fun _ _ => trivial

/-! ### Calls -/

theorem createParentRequest_safe (r : CreateRequest) :
    (createParentRequest r).run.Safe F requests (RequestCall.create r).Move (Quiet _) own t := by
  refine requireParent_quiet fun profile u _ => of_quiet fun checked _ => ?_
  refine transactWrite_quiet (fun v _ ha => ?_) fun _ _ => trivial
  exact ⟨_, .created r _ _ _, ha, rfl⟩

theorem updateRequestStatus_safe (r : ChangeRequest) (given : String) :
    (updateRequestStatus r given).run.Safe F requests (RequestCall.update r given).Move (Quiet _)
      own t := by
  refine of_quiet fun status _ => getRequestItem_quiet fun item u _ hseen => ?_
  split
  · exact getRequestItem_quiet fun _ _ _ _ => listEvents_quiet fun _ _ => trivial
  · refine of_quiet fun _ hallowed => ?_
    refine transactWrite_quiet (fun v hr ha => ?_) fun _ _ => changed_quiet
    exact ⟨_, .updated r given item status (hseen.rely hr) hallowed, ha, rfl⟩

theorem putItem_move {r : ChangeRequest} {k : Key} {item : Row k} (hk : ¬ IsRequestRow k)
    (u : Table Key Row) :
    (RequestCall.apply r).Move u (u.apply [.put k item fun _ => true]) :=
  ⟨_, .overridden r k item hk, by simp [Table.Admits, Write.put], rfl⟩

theorem applyRequest_safe (r : ChangeRequest) :
    (applyRequest r).run.Safe F requests (RequestCall.apply r).Move (Quiet _) own t := by
  refine getRequestItem_quiet fun item u _ hseen => ?_
  split
  · trivial
  split
  · trivial
  refine requireParent_quiet fun _ v hv => of_quiet fun tier _ => ?_
  refine bind_quiet (requireParent_quiet fun profile w hw => ?_) fun updated own w => ?_
  · refine versionedProfileOperations_quiet fun ops x hx hprofile => ?_
    refine transactWrite_quiet (fun y hy ha => ?_) fun _ _ => changed_quiet
    have hseen' := (((hseen.rely hv).rely hw).rely hx).rely hy
    refine ⟨_, .applied r item tier ops hseen' (fun w hkey => ?_), ha, rfl⟩
    rcases hprofile w hkey with hkey | hkey <;> exact hkey ▸ id
  · exact bind_quiet (get_quiet fun x _ => bind_quiet (putItem_quiet (putItem_move id))
      fun _ _ _ => putItem_quiet (putItem_move id)) fun _ _ _ => trivial

theorem RequestCall.body_safe (c : RequestCall) :
    c.body.Safe F requests c.Move (Quiet _) own t := by
  cases c with
  | create r => exact createParentRequest_safe r
  | update r status => exact updateRequestStatus_safe r status
  | apply r => exact applyRequest_safe r

end

/-! ## What a commit does to requests -/

/-- A request and its guard are rewritten, and an event is added. -/
def written (t : Table Key Row) (id : String) (row : RequestRow) (event : EventRow)
    (guard : Option OpenGuardRow) : Table Key Row :=
  ((t.set (.request id) (some row)).set (.requestEvent id event.eventAt event.eventId)
    (some event)).set (.openGuard row.parentId) guard

/-- Which requests and guards a commit changes, and which event it adds. -/
inductive Change (t t' : Table Key Row) : Prop where
  | kept (same : t'.AgreesOn IsRequestRow t)
  | opened (id : String) (row : RequestRow) (event : EventRow) (guard : OpenGuardRow)
      (absent : t.row (.request id) = none) (free : t.row (.openGuard row.parentId) = none)
      (unrecorded : t.row (.requestEvent id event.eventAt event.eventId) = none)
      (status : row.status = .requested) (names : guard.requestId = id)
      (eventType : event.eventType = row.status)
      (rows : t'.AgreesOn IsRequestRow (written t id row event (some guard)))
  | moved (id : String) (stored row : RequestRow) (event : EventRow)
      (found : t.row (.request id) = some stored) (parent : row.parentId = stored.parentId)
      (unrecorded : t.row (.requestEvent id event.eventAt event.eventId) = none)
      (allowed : row.status ∈ ALLOWED_TRANSITIONS stored.status)
      (eventType : event.eventType = row.status)
      (rows : t'.AgreesOn IsRequestRow (written t id row event
        (if row.status.isTerminal then none else t.row (.openGuard row.parentId))))

theorem requireTransition_allowed {current target : RequestStatus}
    (h : requireTransition current target = .ok ()) : target ∈ ALLOWED_TRANSITIONS current := by
  unfold requireTransition at h
  split at h
  · cases h
  · split at h
    · assumption
    · cases h

section

variable {t t' : Table Key Row}

/-- A request that was read still belongs to the same parent. -/
theorem stored_of_seen {id : String} {item : RequestRow} {expected : RequestStatus} {u : Updates}
    (hseen : requests.Seen (.request id) (some item) t)
    (hmet : (u.operation id expected).condition (t.row (.request id)) = true) :
    ∃ stored, t.row (.request id) = some stored ∧ stored.parentId = item.parentId ∧
      stored.status = expected := by
  obtain ⟨v, -, hv, hrely⟩ := hseen
  obtain ⟨stored, hstored, hparent, -⟩ := hrely.request id item hv
  have hmet : (t.row (.request id)).any (fun row => row.status = expected) = true := hmet
  rw [hstored] at hmet
  exact ⟨stored, hstored, hparent, of_decide_eq_true hmet⟩

theorem putEvent_unrecorded {event : EventRow} {ops : List (Write Key Row)} (ha : t.Admits ops)
    (hmem : putEvent event ∈ ops) :
    t.row (.requestEvent event.requestId event.eventAt event.eventId) = none :=
  Option.isNone_iff_eq_none.mp (ha.2 _ hmem)

theorem updateRequestOperations_apply {item stored : RequestRow} (updates : Updates)
    (event : EventRow) (expected : RequestStatus)
    (hstored : t.row (.request event.requestId) = some stored)
    (hparent : stored.parentId = item.parentId) :
    t.apply (updateRequestOperations item updates event expected updates.status.isTerminal) =
      written t event.requestId (updates.item stored) event
        (if (updates.item stored).status.isTerminal then none
          else t.row (.openGuard (updates.item stored).parentId)) := by
  have hkey : (updates.item stored).parentId = item.parentId := hparent
  have hstatus : (updates.item stored).status = updates.status := rfl
  rw [written, hkey, hstatus, updateRequestOperations]
  cases updates.status.isTerminal with
  | true =>
      simp [Table.apply, Updates.operation, putEvent, Write.modify, Write.putNew, Write.put,
        Write.delete, hstored]
  | false =>
      -- The guard is written back as it is.
      have hguard : ((t.set (.request event.requestId) (some (updates.item stored))).set
          (.requestEvent event.requestId event.eventAt event.eventId) (some event)).row
            (.openGuard item.parentId) = t.row (.openGuard item.parentId) := by simp
      simp only [Bool.false_eq_true, ↓reduceIte, List.append_nil]
      rw [← hguard, Table.set_row_self]
      simp [Table.apply, Updates.operation, putEvent, Write.modify, Write.putNew, Write.put,
        hstored]

theorem RequestCall.Move.change {c : RequestCall} (h : c.Move t t') : Change t t' := by
  obtain ⟨ops, htransaction, ha, rfl⟩ := h
  cases htransaction with
  | created r requestType current target =>
      have hnone := ha.2
      simp only [CreateRequest.operations, List.mem_cons, List.not_mem_nil, or_false,
        forall_eq_or_imp, forall_eq, putEvent, Write.putNew, Write.put,
        Option.isNone_iff_eq_none] at hnone
      obtain ⟨hrequest, hevent, hguard⟩ := hnone
      exact .opened r.requestId (r.item requestType current target) (r.event requestType target)
        r.guard hrequest hguard hevent rfl rfl rfl fun _ _ => rfl
  | updated r given item status seen allowed =>
      obtain ⟨stored, hstored, hparent, hstatus⟩ := stored_of_seen seen
        (ha.2 ((r.updates status).operation r.requestId item.status) (List.mem_cons_self ..))
      refine .moved r.requestId stored ((r.updates status).item stored) _ hstored rfl
        (putEvent_unrecorded ha (List.mem_cons_of_mem _ (List.mem_cons_self ..)))
        (hstatus ▸ requireTransition_allowed allowed) rfl ?_
      have happly := updateRequestOperations_apply (r.updates status)
        (r.event status (r.updates status) (r.changes status)) item.status hstored hparent
      exact fun k _ => congrArg (fun x : Table Key Row => x.row k) happly
  | applied r item tier profileOperations seen profile =>
      have hops : r.applyOperations item tier profileOperations = profileOperations ++
          updateRequestOperations item (r.applyUpdates item) (r.applyEvent item tier) .approved
            (r.applyUpdates item).status.isTerminal := rfl
      obtain ⟨stored, hstored, hparent, hstatus⟩ := stored_of_seen seen
        (ha.2 ((r.applyUpdates item).operation r.requestId .approved)
          (List.mem_append_right _ (List.mem_cons_self ..)))
      refine .moved r.requestId stored ((r.applyUpdates item).item stored) (r.applyEvent item tier)
        hstored rfl (putEvent_unrecorded ha (List.mem_append_right _
          (List.mem_cons_of_mem _ (List.mem_cons_self ..)))) ?_ rfl ?_
      · rw [hstatus]
        exact List.mem_cons_self ..
      · have happly := updateRequestOperations_apply (r.applyUpdates item) (r.applyEvent item tier)
          .approved hstored hparent
        rw [hops, Table.apply_append]
        refine (Table.AgreesOn.apply (Table.AgreesOn.apply_outside t profile) _).trans ?_
        exact fun k _ => congrArg (fun x : Table Key Row => x.row k) happly
  | overridden r key item other =>
      refine .kept (Table.AgreesOn.apply_outside t fun w hw => ?_)
      rw [List.mem_singleton.mp hw]
      exact other

end

/-! ## Requests and guards together -/

/-- A guard names an open request of its parent, and every open request has one. -/
structure OneOpen (t : Table Key Row) : Prop where
  names : ∀ parent guard, t.row (.openGuard parent) = some guard → ∃ row,
    t.row (.request guard.requestId) = some row ∧ row.parentId = parent ∧ row.status.isOpen
  guarded : ∀ id row, t.row (.request id) = some row → row.status.isOpen →
    ∃ guard, t.row (.openGuard row.parentId) = some guard ∧ guard.requestId = id

theorem OneOpen.unique {t : Table Key Row} (h : OneOpen t) {id id' : String} {row row' : RequestRow}
    (hrow : t.row (.request id) = some row) (hrow' : t.row (.request id') = some row')
    (hopen : row.status.isOpen) (hopen' : row'.status.isOpen)
    (hparent : row.parentId = row'.parentId) : id = id' := by
  obtain ⟨guard, hguard, rfl⟩ := h.guarded id row hrow hopen
  obtain ⟨guard', hguard', rfl⟩ := h.guarded id' row' hrow' hopen'
  rw [hparent] at hguard
  cases hguard.symm.trans hguard'
  rfl

theorem OneOpen.agree {t u : Table Key Row} (h : OneOpen t) (hu : u.AgreesOn IsRequestRow t) :
    OneOpen u where
  names := by
    intro parent guard hguard
    obtain ⟨row, hrow, hrest⟩ := h.names parent guard ((hu (.openGuard parent) trivial).symm.trans hguard)
    exact ⟨row, (hu (.request guard.requestId) trivial).trans hrow, hrest⟩
  guarded := by
    intro id row hrow hopen
    obtain ⟨guard, hguard, hid⟩ := h.guarded id row ((hu (.request id) trivial).symm.trans hrow) hopen
    exact ⟨guard, (hu (.openGuard row.parentId) trivial).trans hguard, hid⟩

theorem RequestStatus.isTerminal_eq (status : RequestStatus) :
    status.isTerminal = !status.isOpen := by
  cases status <;> rfl

/-- Only an open request can be moved on. -/
theorem open_of_allowed {current target : RequestStatus}
    (h : target ∈ ALLOWED_TRANSITIONS current) : current.isOpen := by
  cases current <;> first | rfl | cases h

section

variable {t : Table Key Row} {id : String} {row : RequestRow} {event : EventRow}
  {guard : Option OpenGuardRow}

theorem written_request : (written t id row event guard).row (.request id) = some row := by
  simp [written]

theorem written_request_of_ne {id' : String} (h : id' ≠ id) :
    (written t id row event guard).row (.request id') = t.row (.request id') := by
  simp [written, h]

theorem written_guard : (written t id row event guard).row (.openGuard row.parentId) = guard := by
  simp [written]

theorem written_guard_of_ne {parent : String} (h : parent ≠ row.parentId) :
    (written t id row event guard).row (.openGuard parent) = t.row (.openGuard parent) := by
  simp [written, h]

theorem written_event (k : String × String × String) :
    (written t id row event guard).row (.requestEvent k.1 k.2.1 k.2.2) =
      if k = (id, event.eventAt, event.eventId) then some event
      else t.row (.requestEvent k.1 k.2.1 k.2.2) := by
  obtain ⟨id', at_, eventId⟩ := k
  split
  · rename_i heq
    cases heq
    simp [written]
  · rename_i hne
    rw [written, Table.row_set_of_ne _ _ (by simp), Table.row_set_of_ne _ _ fun he => ?_,
      Table.row_set_of_ne _ _ (by simp)]
    cases he
    exact hne rfl

/-- A new request takes a guard that is free. -/
theorem OneOpen.opened (h : OneOpen t) {guard : OpenGuardRow} (hfree : t.row (.openGuard row.parentId) = none)
    (habsent : t.row (.request id) = none) (hstatus : row.status = .requested)
    (hnames : guard.requestId = id) : OneOpen (written t id row event (some guard)) where
  names := by
    intro parent found hfound
    by_cases hparent : parent = row.parentId
    · subst hparent
      rw [written_guard] at hfound
      cases hfound
      exact ⟨row, hnames ▸ written_request, rfl, hstatus ▸ rfl⟩
    · rw [written_guard_of_ne hparent] at hfound
      obtain ⟨other, hother, hrest⟩ := h.names parent found hfound
      have hne : found.requestId ≠ id := fun he => by
        rw [he, habsent] at hother
        cases hother
      exact ⟨other, (written_request_of_ne hne).trans hother, hrest⟩
  guarded := by
    intro id' row' hrow' hopen
    by_cases hid : id' = id
    · subst hid
      rw [written_request] at hrow'
      cases hrow'
      exact ⟨guard, written_guard, hnames⟩
    · rw [written_request_of_ne hid] at hrow'
      obtain ⟨found, hfound, hfoundId⟩ := h.guarded id' row' hrow' hopen
      have hparent : row'.parentId ≠ row.parentId := fun he => by
        rw [he, hfree] at hfound
        cases hfound
      exact ⟨found, (written_guard_of_ne hparent).trans hfound, hfoundId⟩

/-- The request that is moved on was the open one of its parent; when it ends,
so does its guard. -/
theorem OneOpen.moved (h : OneOpen t) {stored : RequestRow}
    (hfound : t.row (.request id) = some stored) (hparent : row.parentId = stored.parentId)
    (hallowed : row.status ∈ ALLOWED_TRANSITIONS stored.status) :
    OneOpen (written t id row event
      (if row.status.isTerminal then none else t.row (.openGuard row.parentId))) := by
  obtain ⟨own, hown, hownId⟩ := h.guarded id stored hfound (open_of_allowed hallowed)
  rw [← hparent] at hown
  refine ⟨fun parent guard hguard => ?_, fun id' row' hrow' hopen => ?_⟩
  · by_cases hsame : parent = row.parentId
    · subst hsame
      rw [written_guard] at hguard
      split at hguard
      · cases hguard
      · rename_i hopen
        cases hown.symm.trans hguard
        rw [RequestStatus.isTerminal_eq, Bool.not_eq_true, Bool.not_eq_false'] at hopen
        exact ⟨row, hownId ▸ written_request, rfl, hopen⟩
    · rw [written_guard_of_ne hsame] at hguard
      obtain ⟨other, hother, hotherParent, hopen⟩ := h.names parent guard hguard
      have hne : guard.requestId ≠ id := fun he => by
        rw [he, hfound] at hother
        cases hother
        exact hsame (hotherParent.symm.trans hparent.symm)
      exact ⟨other, (written_request_of_ne hne).trans hother, hotherParent, hopen⟩
  · by_cases hid : id' = id
    · subst hid
      rw [written_request] at hrow'
      cases hrow'
      refine ⟨own, written_guard.trans ?_, hownId⟩
      rw [RequestStatus.isTerminal_eq, hopen]
      exact hown
    · rw [written_request_of_ne hid] at hrow'
      obtain ⟨found, hguard, hguardId⟩ := h.guarded id' row' hrow' hopen
      have hne : row'.parentId ≠ row.parentId := fun he => by
        rw [he, hown] at hguard
        cases hguard
        exact hid (hguardId.symm.trans hownId)
      exact ⟨found, (written_guard_of_ne hne).trans hguard, hguardId⟩

end

theorem Change.oneOpen {t t' : Table Key Row} (h : OneOpen t) (hc : Change t t') : OneOpen t' := by
  cases hc with
  | kept same => exact h.agree same
  | opened id row event guard absent free unrecorded status names eventType rows =>
      exact (h.opened free absent status names).agree rows
  | moved id stored row event found parent unrecorded allowed eventType rows =>
      exact (h.moved found parent allowed).agree rows

/-! ## Events -/

/-- An event row that was not there before. -/
def AddsEvent (t t' : Table Key Row) (k : String × String × String) : Prop :=
  t.row (.requestEvent k.1 k.2.1 k.2.2) = none ∧ (t'.row (.requestEvent k.1 k.2.1 k.2.2)).isSome

/-- The status of a request is another one, or the first one. -/
def ChangesStatus (t t' : Table Key Row) (id : String) (row : RequestRow) : Prop :=
  t'.row (.request id) = some row ∧
    ∀ stored, t.row (.request id) = some stored → stored.status ≠ row.status

section

variable {t t' : Table Key Row}

theorem written_kept {id : String} {row : RequestRow} {event : EventRow}
    {guard : Option OpenGuardRow}
    (hrequest : ∀ stored, t.row (.request id) = some stored →
      row.parentId = stored.parentId ∧ stored.status.isOpen)
    (hevent : t.row (.requestEvent id event.eventAt event.eventId) = none) :
    RequestsKept t (written t id row event guard) where
  request := by
    intro id' stored hstored
    by_cases hid : id' = id
    · subst hid
      obtain ⟨hparent, hopen⟩ := hrequest stored hstored
      refine ⟨row, written_request, hparent, fun hterminal => ?_⟩
      rw [RequestStatus.isTerminal_eq, hopen] at hterminal
      cases hterminal
    · exact ⟨stored, (written_request_of_ne hid).trans hstored, rfl, fun _ => rfl⟩
  event := by
    intro id' at_ eventId found hfound
    refine (written_event (id', at_, eventId)).trans ?_
    rw [if_neg fun he => ?_]
    · exact hfound
    · cases he
      cases hevent.symm.trans hfound

/-- Every commit stays inside the rely. -/
theorem Change.requestsKept (h : Change t t') : RequestsKept t t' := by
  cases h with
  | kept same => exact .of_agrees same
  | opened id row event guard absent free unrecorded status names eventType rows =>
      refine (written_kept (fun stored hstored => ?_) unrecorded).trans (.of_agrees rows)
      cases absent.symm.trans hstored
  | moved id stored row event found parent unrecorded allowed eventType rows =>
      refine (written_kept (fun stored' hstored' => ?_) unrecorded).trans (.of_agrees rows)
      cases found.symm.trans hstored'
      exact ⟨parent, open_of_allowed allowed⟩

theorem written_adds {id : String} {row : RequestRow} {event : EventRow}
    {guard : Option OpenGuardRow}
    (hnone : t.row (.requestEvent id event.eventAt event.eventId) = none)
    (hrows : t'.AgreesOn IsRequestRow (written t id row event guard))
    (k : String × String × String) :
    AddsEvent t t' k ↔ k = (id, event.eventAt, event.eventId) := by
  rw [AddsEvent, hrows (.requestEvent k.1 k.2.1 k.2.2) trivial, written_event]
  constructor
  · rintro ⟨hbefore, hafter⟩
    by_contra hne
    rw [if_neg hne, hbefore] at hafter
    cases hafter
  · rintro rfl
    exact ⟨hnone, by simp⟩

/-- A status changes with exactly one event, which says what it is now. -/
theorem Change.recorded (h : Change t t') {id : String} {row : RequestRow}
    (hchanges : ChangesStatus t t' id row) :
    ∃ event : EventRow, event.eventType = row.status ∧
      t'.row (.requestEvent id event.eventAt event.eventId) = some event ∧
        ∀ k, AddsEvent t t' k ↔ k = (id, event.eventAt, event.eventId) := by
  obtain ⟨hafter, hbefore⟩ := hchanges
  have hwritten : ∀ {id' : String} {row' : RequestRow} {event : EventRow}
      {guard : Option OpenGuardRow}, event.eventType = row'.status →
      t.row (.requestEvent id' event.eventAt event.eventId) = none →
      t'.AgreesOn IsRequestRow (written t id' row' event guard) →
      ∃ event : EventRow, event.eventType = row.status ∧
        t'.row (.requestEvent id event.eventAt event.eventId) = some event ∧
          ∀ k, AddsEvent t t' k ↔ k = (id, event.eventAt, event.eventId) := by
    intro id' row' event guard htype hnone hrows
    rw [hrows (.request id) trivial] at hafter
    by_cases hid : id = id'
    · subst hid
      rw [written_request] at hafter
      cases hafter
      refine ⟨event, htype, ?_, written_adds hnone hrows⟩
      rw [hrows (.requestEvent id event.eventAt event.eventId) trivial]
      exact (written_event (id, event.eventAt, event.eventId)).trans (if_pos rfl)
    · rw [written_request_of_ne hid] at hafter
      exact absurd rfl (hbefore row hafter)
  cases h with
  | kept same =>
      rw [same (.request id) trivial] at hafter
      exact absurd rfl (hbefore row hafter)
  | opened id' row' event guard absent free unrecorded status names eventType rows =>
      exact hwritten eventType unrecorded rows
  | moved id' stored row' event found parent unrecorded allowed eventType rows =>
      exact hwritten eventType unrecorded rows

end

/-! ## Every run -/

def requestContract (faults : Faults) : Contract (requestService faults) where
  toInterference := requests
  Move := RequestCall.Move
  move_inv := fun _ _ => trivial
  move_rely := fun _ h => h.change.requestsKept
  drift_inv := fun _ _ => trivial
  drift_rely := fun _ h => .of_agrees h

/-- One open request per parent, and an event for every change of a status. -/
structure OneOpenRequest (s : State Key Row RequestCall (Except Raised RequestRow)) : Prop where
  unique : ∀ id id' row row', s.table.row (.request id) = some row →
    s.table.row (.request id') = some row' → row.status.isOpen → row'.status.isOpen →
      row.parentId = row'.parentId → id = id'
  guard : ∀ parent id, (∃ guard, s.table.row (.openGuard parent) = some guard ∧
    guard.requestId = id) ↔ ∃ row, s.table.row (.request id) = some row ∧ row.parentId = parent ∧
      row.status.isOpen
  recorded : ∀ e ∈ s.history, ∀ id row, ChangesStatus e.before e.after id row →
    ∃ event : EventRow, event.eventType = row.status ∧
      s.table.row (.requestEvent id event.eventAt event.eventId) = some event ∧
        ∀ k, AddsEvent e.before e.after k ↔ k = (id, event.eventAt, event.eventId)
  own : ∀ e ∈ s.history, ∀ e' ∈ s.history, ∀ k, AddsEvent e.before e.after k →
    AddsEvent e'.before e'.after k → e = e'

/-- Every parent has at most one open request, which its guard names; what has
ended stays as it is; and every change of a status has an event of its own. -/
theorem one_open_request {faults : Faults} {t : Table Key Row}
    {s : State Key Row RequestCall (Except Raised RequestRow)} (hstart : OneOpen t)
    (h : Reachable (requestService faults) t s) :
    OneOpenRequest s ∧ ∀ s', Steps (requestService faults) s s' → ∀ id row,
      s.table.row (.request id) = some row → row.status.isTerminal →
        ∃ row', s'.table.row (.request id) = some row' ∧ row'.status = row.status := by
  have hsafe : ∀ (c : RequestCall) (u : Table Key Row), requests.Inv u →
      ((requestService faults).body c).Safe faults requests c.Move (Quiet _) [] u :=
    fun c _ _ => c.body_safe
  have hs := Reachable.sound (Γ := requestContract faults) h trivial (Q := fun _ => Quiet _) hsafe
  have hopen : OneOpen s.table :=
    (Reachable.traced (Γ := requestContract faults) (Q := fun _ => Quiet _) h trivial hsafe
      (P := fun _ u => OneOpen u) (R := fun _ _ => True) hstart
      (fun e _ _ hmove _ hP => (RequestCall.Move.change hmove).oneOpen hP)
      (fun _ _ _ _ hP hd => hP.agree hd) fun _ _ => trivial).1
  refine ⟨⟨?_, ?_, ?_, ?_⟩, ?_⟩
  · exact fun id id' row row' hrow hrow' ho ho' hparent => hopen.unique hrow hrow' ho ho' hparent
  · refine fun parent id => ⟨?_, ?_⟩
    · rintro ⟨guard, hguard, rfl⟩
      exact hopen.names parent guard hguard
    · rintro ⟨row, hrow, rfl, hstatus⟩
      exact hopen.guarded id row hrow hstatus
  · intro e he id row hchanges
    obtain ⟨-, hmove, hrely, -⟩ := hs.history e he
    obtain ⟨event, htype, hevent, hadds⟩ := (RequestCall.Move.change hmove).recorded hchanges
    exact ⟨event, htype, RequestsKept.event hrely _ _ _ _ hevent, hadds⟩
  · intro e he e' he' k hadds hadds'
    refine hs.commit_unique (P := fun u u' => AddsEvent u u' k) (fun d _ u u' hd hrely hd' => ?_) he he'
      hadds hadds'
    obtain ⟨event, hevent⟩ := Option.isSome_iff_exists.mp hd.2
    cases hd'.1.symm.trans (RequestsKept.event hrely _ _ _ _ hevent)
  · intro s' hrun id row hrow hterminal
    have hrely : RequestsKept s.table s'.table :=
      (hs.steps hrun fun _ c u _ _ _ => hsafe c u trivial).2.2
    obtain ⟨row', hrow', -, hstatus⟩ := hrely.request id row hrow
    exact ⟨row', hrow', hstatus hterminal⟩

/-! ## A request that is applied -/

namespace RequestSample

def start : Table Key Row := Table.empty.apply [
  .putNew (.profile "parent") ⟨some "parent", some 1, some "student"⟩,
  .putNew (.accountFence "parent") ⟨"active", some 1⟩]

theorem start_open : OneOpen start where
  names := by
    intro parent guard hguard
    rw [start, Table.row_apply_of_notMem _ _ _ (by simp [Write.putNew, Write.put])] at hguard
    cases hguard
  guarded := by
    intro id row hrow
    rw [start, Table.row_apply_of_notMem _ _ _ (by simp [Write.putNew, Write.put])] at hrow
    cases hrow

abbrev Run := State Key Row RequestCall (Except Raised RequestRow)

def solo (c : RequestCall) (s : Run) : Run := s.solo (requestService .strongReads) c []

theorem solo_reachable {c : RequestCall} {s : Run}
    (h : Reachable (requestService .strongReads) start s) :
    Reachable (requestService .strongReads) start (solo c s) :=
  h.trans (State.solo_steps trivial trivial trivial [])

def ask (hex requestType tier : String) : RequestCall := .create {
  parentId := "parent"
  requestType := requestType
  requestedTier := some tier
  parentNote := none
  source := "parent_portal"
  now := "2026-03-01T00:00:00+00:00"
  requestHex := hex
  eventHex := hex
  cancelled := true }

def change (eventHex : String) : ChangeRequest where
  requestId := "subreq-1"
  adminNote := some " agreed "
  effectiveAt := none
  user := ⟨some "admin", none, none⟩
  now := "2026-03-02T00:00:00+00:00"
  eventHex := eventHex
  cancelled := true

/-- A second request has to wait until the first is applied. -/
def applied : Run :=
  solo (ask "3" "downgrade" "student") (solo (.apply (change "5"))
    (solo (.update (change "4") "approved") (solo (ask "2" "upgrade" "teacher_supported")
      (solo (ask "1" "upgrade" "family") (.initial start)))))

theorem applied_reachable : Reachable (requestService .strongReads) start applied :=
  solo_reachable (solo_reachable (solo_reachable (solo_reachable (solo_reachable .refl))))

end RequestSample

theorem one_open_request_sample :
    OneOpenRequest RequestSample.applied ∧
      (RequestSample.applied.table.row (.request "subreq-1")).map RequestRow.status =
        some .applied ∧
      (RequestSample.applied.table.row (.openGuard "parent")).map OpenGuardRow.requestId =
        some "subreq-3" :=
  ⟨(one_open_request RequestSample.start_open RequestSample.applied_reachable).1,
    by decide +kernel, by decide +kernel⟩

end Stoa.Subscription
