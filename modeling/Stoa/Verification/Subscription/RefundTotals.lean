import Stoa.Verification.Subscription.RefundEvents
import Mathlib.Algebra.Order.BigOperators.Group.List
import Mathlib.Data.List.Perm.Subperm
import Mathlib.Algebra.Ring.Int.Defs

/-! # The total of the refunds

Whatever reports a refund adds the amount that it carries to the invoice. -/

namespace Stoa.Subscription

open RowStore

/-! ## Amounts -/

/-- A report of a refund makes the row of what it was. -/
structure Adds (amount : ℤ) (named : Prop) (row row' : BillingRow) : Prop where
  refunded : amountValue row'.latestInvoice.amountRefunded =
    amountValue row.latestInvoice.amountRefunded + amount
  paid : row'.latestInvoice.amountPaid = row.latestInvoice.amountPaid
  status : (row'.billingStatus.any (· ∈ REFUNDABLE_STATUSES)) = row.billingStatus.any (· ∈ REFUNDABLE_STATUSES)
  reference : row'.latestInvoice.hasProviderReference = true ↔
    row.latestInvoice.hasProviderReference = true ∨ named
  eligible : row'.refundSummary.eligibleAmount = (refundReadiness (some row')).eligibleAmount

section

variable {o : ProviderObject} {kind : ProviderEventType} {existing : BillingRow} {parent refundNow : String}
  {transition : BillingTransition} {e : ProviderEvent}

theorem providerIdValue_ne {value : Option String} {id : String} (h : providerIdValue value = some id) : id ≠ "" := by
  have hfilter := (Option.filter_eq_some_iff.mp h).2
  simpa using hfilter

theorem truthy_of_providerIdValue {value : Option String} {id : String} (h : providerIdValue value = some id) :
    (truthy value).isNone = false := by
  cases value with
  | none => cases h
  | some text =>
      have htext : text ≠ "" := by
        rintro rfl
        exact absurd h (by revert id; decide)
      simp [truthy, Option.filter, htext]

/-- Where an object that is no invoice names one, the invoice keeps its amounts. -/
theorem invoiceOf_other (kind : ProviderEventType) (existing : BillingRow) (hobject : o.objectType ≠ "invoice") :
    o.invoiceOf kind existing = existing.latestInvoice ∧ providerIdValue o.invoice = none ∨
      ∃ id, providerIdValue o.invoice = some id ∧ (o.invoiceOf kind existing).providerInvoiceId = some id ∧
        (o.invoiceOf kind existing).amountPaid = existing.latestInvoice.amountPaid ∧
        (o.invoiceOf kind existing).amountRefunded = existing.latestInvoice.amountRefunded := by
  unfold ProviderObject.invoiceOf
  rw [if_neg hobject]
  cases hid : providerIdValue o.invoice with
  | none =>
      refine .inl ⟨?_, rfl⟩
      split
      · rfl
      · exact congrArg (Option.elim · _ _) hid
  | some id =>
      refine .inr ⟨id, rfl, ?_⟩
      rw [if_neg (by simp [truthy_of_providerIdValue hid])]
      have hfields : (providerIdValue (textOr ({} : ProviderObject).id o.invoice)).elim existing.latestInvoice
          (({} : ProviderObject).invoiceFields kind existing) = ({} : ProviderObject).invoiceFields kind existing id :=
        congrArg (Option.elim · _ _) hid
      dsimp only
      rw [hfields]
      exact ⟨rfl, rfl, rfl⟩

theorem billingTransition_refund (hkind : kind.IsRefund)
    (h : billingTransition kind o existing refundNow = .ok transition) :
    transition.latestInvoice = o.invoiceOf kind existing ∧
      transition.billingStatus = (truthy existing.billingStatus).getD "provider_unknown" ∧
      ∃ refund, transition.refund = some refund ∧
        refund.refundedAmount = (amountOr o.amountRefunded o.amount).or existing.refundSummary.refundedAmount := by
  unfold billingTransition at h
  cases htier : normalizeTier (textOr o.requestedTier existing.requestedTier) with
  | error x =>
      rw [htier] at h
      cases h
  | ok tier =>
      rw [htier] at h
      cases h
      refine ⟨rfl, ?_, _, if_pos hkind, rfl⟩
      rcases hkind with rfl | rfl | rfl | rfl <;> rfl

/-- The status of the row is one that allows refunds as it was before. -/
theorem status_refundable (hstatus : transition.billingStatus = (truthy existing.billingStatus).getD "provider_unknown") :
    decide (ProviderEvent.status transition existing ∈ REFUNDABLE_STATUSES) =
      existing.billingStatus.any (· ∈ REFUNDABLE_STATUSES) := by
  unfold ProviderEvent.status
  cases hbefore : existing.billingStatus with
  | none =>
      rw [hstatus, hbefore]
      rfl
  | some status =>
      rw [hstatus, hbefore]
      by_cases hmanual : status = "manual_override"
      · rw [hmanual]
        rfl
      · by_cases hempty : status = ""
        · rw [hempty]
          rfl
        · have htruthy : truthy (some status) = some status := by simp [truthy, Option.filter, hempty]
          simp [hmanual, htruthy]

/-- A refund's event adds the amount that its object carries. -/
theorem appliedItem_adds (hkind : kind.IsRefund) (hobject : e.object.objectType ≠ "invoice")
    (h : billingTransition kind e.object existing refundNow = .ok transition) :
    Adds (amountValue ((amountOr e.object.amountRefunded e.object.amount).or existing.refundSummary.refundedAmount))
      ((providerIdValue e.object.invoice).isSome = true) existing (e.appliedItem parent transition existing) := by
  obtain ⟨hinvoice, hstatus, refund, hrefund, hamount⟩ := billingTransition_refund hkind h
  have hlatest : (e.projectedItem parent transition existing).latestInvoice = e.object.invoiceOf kind existing := by
    change (if transition.latestInvoice = {} then existing.latestInvoice else transition.latestInvoice) = _
    rw [hinvoice]
    rcases invoiceOf_other kind existing hobject with ⟨hsame, -⟩ | ⟨id, -, hid, -⟩
    · rw [hsame]
      split <;> rfl
    · rw [if_neg]
      intro he
      rw [he] at hid
      cases hid
  have hother := invoiceOf_other kind existing hobject
  have happlied : ∃ dunning, e.appliedItem parent transition existing =
      { ProviderEvent.withRefund refund (e.projectedItem parent transition existing) with dunning := dunning } := by
    unfold ProviderEvent.appliedItem
    rw [hrefund]
    exact ⟨_, rfl⟩
  obtain ⟨dunning, happlied⟩ := happlied
  rw [happlied]
  constructor
  · change amountValue (e.projectedItem parent transition existing).latestInvoice.amountRefunded +
      amountValue refund.refundedAmount = _
    rw [hlatest, hamount]
    rcases hother with ⟨hsame, -⟩ | ⟨id, -, -, -, hsame⟩ <;> rw [hsame]
  · change (e.projectedItem parent transition existing).latestInvoice.amountPaid = _
    rw [hlatest]
    rcases hother with ⟨hsame, -⟩ | ⟨id, -, -, hsame, -⟩ <;> rw [hsame]
  · exact status_refundable hstatus
  · change (e.projectedItem parent transition existing).latestInvoice.hasProviderReference = true ↔ _
    rw [hlatest]
    rcases hother with ⟨hsame, hnone⟩ | ⟨id, hid, hnamed, -⟩
    · rw [hsame, hnone]
      simp
    · have htruthy : truthy (some id) = some id := by simp [truthy, Option.filter, providerIdValue_ne hid]
      rw [hid]
      simp [Invoice.hasProviderReference, hnamed, htruthy]
  · rfl

/-- A direct refund adds its amount. -/
theorem updatedItem_adds (v : Refund) : Adds v.amount False existing (v.updatedItem existing) where
  refunded := rfl
  paid := rfl
  status := rfl
  reference := (iff_of_eq (or_false _)).symm
  eligible := rfl

theorem Adds.trans {a b : ℤ} {p q : Prop} {row row' row'' : BillingRow} (h : Adds a p row row')
    (h' : Adds b q row' row'') : Adds (a + b) (p ∨ q) row row'' where
  refunded := by rw [h'.refunded, h.refunded, add_assoc]
  paid := h'.paid.trans h.paid
  status := h'.status.trans h.status
  reference := by rw [h'.reference, h.reference, or_assoc]
  eligible := h'.eligible

end

/-! ## Deliveries -/

/-- A refund of the invoice, as it is at the provider in the end. -/
structure InvoiceRefund where
  id : String
  amount : ℤ
  succeeded : Bool
  positive : 0 < amount

/-- What reaches the service: an event, or the result of a direct refund. -/
inductive Delivery where
  | event (e : ProviderEvent)
  | direct (v : Refund)

namespace Delivery

def handler : Delivery → Handler Unit
  | event e => do
    let _ ← handleVerifiedProviderEvent e
  | direct v => do
    let existing := (← getBillingItem v.request.parentId).getD { parentId := v.request.parentId }
    let _ ← v.applyDirectRefundResult existing

/-- The id under which it is noted. -/
def id : Delivery → String
  | event e => e.eventId
  | direct v => "direct_refund_" ++ v.providerRefundId

/-- It says which invoice it is about. -/
def NamesInvoice : Delivery → Prop
  | event e => (providerIdValue e.object.invoice).isSome
  | direct _ => False

end Delivery

/-- The deliveries are answered one after another. -/
inductive Delivered : Table Key Row → List Delivery → Table Key Row → Prop
  | nil (t : Table Key Row) : Delivered t [] t
  | cons {t u t' : Table Key Row} {d : Delivery} {ds : List Delivery}
      (answered : d.handler.run.alone t = (.ok (), u)) (rest : Delivered u ds t') : Delivered t (d :: ds) t'

/-- The refunds whose amounts a delivery carries: its own, or all that the charge counts. -/
inductive Carries (parent : String) (refunds : List InvoiceRefund) : Delivery → List InvoiceRefund → Prop
  | refund (e : ProviderEvent) (kind : ProviderEventType) (refund : InvoiceRefund)
      (type : e.eventType = kind.value)
      (kinds : kind = .refundCreated ∨ kind = .refundUpdated ∨ kind = .refundFailed ∧ ¬ refund.succeeded)
      (object : e.object.object = some "refund") (id : e.object.id = some refund.id)
      (amount : e.object.amount = some refund.amount) (cumulative : e.object.amountRefunded = none)
      (mem : refund ∈ refunds) : Carries parent refunds (.event e) [refund]
  | charge (e : ProviderEvent) (counted : List InvoiceRefund)
      (type : e.eventType = ProviderEventType.chargeRefunded.value)
      (object : e.object.object = some "charge")
      (cumulative : e.object.amountRefunded = some (counted.map InvoiceRefund.amount).sum)
      (some_ : counted ≠ []) (mem : counted.Sublist (refunds.filter InvoiceRefund.succeeded)) :
      Carries parent refunds (.event e) counted
  | direct (v : Refund) (refund : InvoiceRefund) (owner : v.request.parentId = parent)
      (id : v.request.providerRefund.id = some refund.id) (amount : v.amount = refund.amount)
      (mem : refund ∈ refunds) : Carries parent refunds (.direct v) [refund]

section

variable {t u t' : Table Key Row} {parent : String} {refunds counted : List InvoiceRefund} {d : Delivery}
  {existing : BillingRow}

theorem sum_amounts_pos (hne : counted ≠ []) : 0 < (counted.map InvoiceRefund.amount).sum := by
  cases counted with
  | nil => exact absurd rfl hne
  | cons refund rest =>
      have hrest : 0 ≤ (rest.map InvoiceRefund.amount).sum := List.sum_nonneg fun a ha => by
        obtain ⟨refund, -, rfl⟩ := List.mem_map.mp ha
        exact refund.positive.le
      have hpos := refund.positive
      simp only [List.map_cons, List.sum_cons]
      omega

/-- What the events of refunds carry. -/
theorem Carries.event {e : ProviderEvent} (h : Carries parent refunds (.event e) counted)
    (fallback : Option ℤ) : ∃ kind : ProviderEventType, kind.IsRefund ∧ e.eventType = kind.value ∧
      e.object.objectType ≠ "invoice" ∧
      amountValue ((amountOr e.object.amountRefunded e.object.amount).or fallback) =
        (counted.map InvoiceRefund.amount).sum := by
  cases h with
  | refund _ kind refund type kinds object id amount cumulative mem =>
      refine ⟨kind, ?_, type, ?_, ?_⟩
      · rcases kinds with rfl | rfl | ⟨rfl, -⟩ <;> decide
      · rw [ProviderObject.objectType, object]
        decide
      · rw [cumulative, amount]
        simp [amountOr, amountValue]
  | charge _ _ type object cumulative some_ mem =>
      have hpos := sum_amounts_pos some_
      refine ⟨.chargeRefunded, by decide, type, ?_, ?_⟩
      · rw [ProviderObject.objectType, object]
        decide
      · rw [cumulative]
        simp [amountOr, amountValue, Option.filter, hpos.ne']

theorem Refund.operations_rewritten {v : Refund} (ha : t.Admits (v.operations existing)) :
    Rewritten v.request.parentId (Delivery.direct v).id (v.updatedItem existing) t
      (t.apply (v.operations existing)) := by
  have hkey : ∀ w ∈ v.operations existing, w.key = .billing v.request.parentId ∨
      w.key = .billingEvent v.request.parentId v.request.appliedAt (Delivery.direct v).id ∨
      w.key = .providerLookup "refund" v.providerRefundId := by
    simp [operations, Write.put, Write.putNew, event, Delivery.id]
  constructor
  · exact t.row_apply_of_mem (w := .put (.billing v.request.parentId) (v.updatedItem existing) fun _ => true)
      ha.1 (by simp [operations])
  · intro objectType objectId
    by_cases hwritten : Key.providerLookup objectType objectId = .providerLookup "refund" v.providerRefundId
    · cases hwritten
      exact .inr ⟨v.lookup (v.updatedItem existing), t.row_apply_of_mem
        (w := .put (.providerLookup "refund" v.providerRefundId) _ fun _ => true) ha.1 (by simp [operations]), rfl⟩
    · refine .inl (t.row_apply_of_notMem _ _ fun w hw he => ?_)
      rcases hkey w hw with h | h | h
      · cases he.trans h
      · cases he.trans h
      · exact hwritten (he.trans h)
  · intro id hne
    refine t.row_apply_of_notMem _ _ fun w hw he => ?_
    rcases hkey w hw with h | h | h <;> cases he.trans h
  · intro at_ id hne
    refine t.row_apply_of_notMem _ _ fun w hw he => ?_
    rcases hkey w hw with h | h | h
    · cases he.trans h
    · exact hne (Key.billingEvent.inj (he.trans h)).2.2
    · cases he.trans h

/-- A delivery that is answered adds the amounts that it carries. -/
theorem Carries.rewritten (h : Carries parent refunds d counted)
    (hof : ∀ e, d = .event e → e.object.Of t parent)
    (hfresh : ∀ e, d = .event e → t.row (.providerEvent e.eventId) = none ∧
      ∀ at_, t.row (.billingEvent parent at_ e.eventId) = none)
    (hexisting : t.row (.billing parent) = some existing) (hanswer : d.handler.run.alone t = (.ok (), u)) :
    ∃ updated, Rewritten parent d.id updated t u ∧
      Adds (counted.map InvoiceRefund.amount).sum d.NamesInvoice existing updated := by
  cases d with
  | event e =>
      obtain ⟨kind, hkind, htype, hobject, hamount⟩ := h.event existing.refundSummary.refundedAmount
      obtain ⟨hunseen, hevent⟩ := hfresh e rfl
      obtain ⟨answer, v, hhandled, hrest⟩ := RowStore.Handler.alone_bind_eq_ok hanswer
      cases hrest
      obtain ⟨transition, htransition, hrewritten⟩ := handleVerifiedProviderEvent_alone htype (hof e rfl)
        hexisting hunseen (hevent e.now) hhandled
      exact ⟨_, hrewritten, hamount ▸ appliedItem_adds hkind hobject htransition⟩
  | direct v =>
      cases h with
      | direct _ refund owner id amount mem =>
          subst owner
          have hread := RowStore.Handler.alone_get_bind.symm.trans hanswer
          rw [hexisting] at hread
          obtain ⟨updated, w, happly, hrest⟩ := RowStore.Handler.alone_bind_eq_ok hread
          cases hrest
          have hcommit := RowStore.Handler.alone_submit_bind.symm.trans happly
          rw [Option.getD_some] at hcommit
          by_cases ha : t.Admits (v.operations existing)
          · rw [if_pos ha] at hcommit
            cases hcommit
            refine ⟨_, v.operations_rewritten ha, ?_⟩
            rw [List.map_singleton, List.sum_singleton, ← amount]
            exact updatedItem_adds v
          · rw [if_neg ha] at hcommit
            cases hcommit

end

/-! ## Runs -/

/-- No event has the id of another delivery. -/
def DistinctEvents (ds : List Delivery) : Prop :=
  ds.Pairwise fun d d' => ∀ e, d = .event e ∨ d' = .event e → d.id ≠ d'.id

/-- Nothing is stored under the ids of the events, and their objects lead to the parent. -/
def Unseen (t : Table Key Row) (parent : String) (ds : List Delivery) : Prop :=
  ∀ e, Delivery.event e ∈ ds → e.object.Of t parent ∧ t.row (.providerEvent e.eventId) = none ∧
    ∀ at_, t.row (.billingEvent parent at_ e.eventId) = none

theorem Delivered.first {t t' : Table Key Row} {d : Delivery} {ds : List Delivery}
    (h : (d.handler.run.alone t).1 = .ok ()) (rest : Delivered (d.handler.run.alone t).2 ds t') :
    Delivered t (d :: ds) t' :=
  .cons (Prod.ext h rfl) rest

section

variable {t t' : Table Key Row} {parent : String} {refunds : List InvoiceRefund} {ds : List Delivery}
  {counted : List (List InvoiceRefund)} {row row' : BillingRow}

theorem Delivered.adds (h : Delivered t ds t') (hcarries : List.Forall₂ (Carries parent refunds) ds counted)
    (hunseen : Unseen t parent ds) (hdistinct : DistinctEvents ds)
    (hrow : t.row (.billing parent) = some row)
    (heligible : row.refundSummary.eligibleAmount = (refundReadiness (some row)).eligibleAmount) :
    ∃ row', t'.row (.billing parent) = some row' ∧
      Adds (counted.flatten.map InvoiceRefund.amount).sum (∃ d ∈ ds, d.NamesInvoice) row row' := by
  induction h generalizing counted row with
  | nil t =>
      cases hcarries
      exact ⟨row, hrow, by simp, rfl, rfl, by simp, heligible⟩
  | @cons t u t' d ds answered rest ih =>
      cases hcarries with
      | @cons _ first _ others hfirst hothers =>
          obtain ⟨hother, hdistinct⟩ := List.pairwise_cons.mp hdistinct
          obtain ⟨updated, hrewritten, hadds⟩ := hfirst.rewritten
            (fun e he => (hunseen e (he ▸ List.mem_cons_self ..)).1)
            (fun e he => (hunseen e (he ▸ List.mem_cons_self ..)).2) hrow answered
          have hlater : Unseen u parent ds := fun e he => by
            obtain ⟨hof, hevent, hnoted⟩ := hunseen e (List.mem_cons_of_mem _ he)
            have hne : e.eventId ≠ d.id := (hother _ he e (.inr rfl)).symm
            exact ⟨hof.keep hrewritten.lookups, (hrewritten.events _ hne).trans hevent,
              fun at_ => (hrewritten.billingEvents at_ _ hne).trans (hnoted at_)⟩
          obtain ⟨row', hrow', hrest⟩ := ih hothers hlater hdistinct hrewritten.billing hadds.eligible
          refine ⟨row', hrow', ?_⟩
          have htrans := hadds.trans hrest
          simpa [List.exists_mem_cons_iff] using htrans

/-- What was refunded of an invoice. -/
def succeededAmount (refunds : List InvoiceRefund) : ℤ :=
  ((refunds.filter InvoiceRefund.succeeded).map InvoiceRefund.amount).sum

/-- The row counts each refund that succeeded once, and offers the rest. -/
structure Accounted (refunds : List InvoiceRefund) (row : BillingRow) : Prop where
  refunded : amountValue row.latestInvoice.amountRefunded = succeededAmount refunds
  eligible : row.refundSummary.eligibleAmount =
    some (amountValue row.latestInvoice.amountPaid - succeededAmount refunds)

/-- After the refunds something is left that the row may offer. -/
def Remains (refunds : List InvoiceRefund) (ds : List Delivery) (row : BillingRow) : Prop :=
  row.billingStatus.any (· ∈ REFUNDABLE_STATUSES) = true ∧
    (row.latestInvoice.hasProviderReference = true ∨ ∃ d ∈ ds, d.NamesInvoice) ∧
    succeededAmount refunds < amountValue row.latestInvoice.amountPaid

theorem Adds.accounted_iff {amount : ℤ} (refunds : List InvoiceRefund) (h : Adds amount (∃ d ∈ ds, d.NamesInvoice) row row')
    (hnone : amountValue row.latestInvoice.amountRefunded = 0) :
    Accounted refunds row' ↔ amount = succeededAmount refunds ∧ Remains refunds ds row := by
  have hrefunded := h.refunded
  rw [hnone, zero_add] at hrefunded
  have heligible : row'.refundSummary.eligibleAmount =
      if isRefundable row' then some (eligibleAmount row'.latestInvoice) else none := h.eligible
  have hleft : eligibleAmount row'.latestInvoice =
      max (amountValue row.latestInvoice.amountPaid - amount) 0 := by
    rw [eligibleAmount, hrefunded, h.paid]
  have hrefundable : isRefundable row' = true ↔
      row.billingStatus.any (· ∈ REFUNDABLE_STATUSES) = true ∧
        0 < max (amountValue row.latestInvoice.amountPaid - amount) 0 ∧
        (row.latestInvoice.hasProviderReference = true ∨ ∃ d ∈ ds, d.NamesInvoice) := by
    rw [isRefundable, decide_eq_true_iff, h.status, hleft, h.reference]
  constructor
  · rintro ⟨hsum, hrest⟩
    have hamount := hrefunded.symm.trans hsum
    rw [heligible] at hrest
    split at hrest
    · obtain ⟨hstatus, hpos, hreference⟩ := hrefundable.mp ‹_›
      exact ⟨hamount, hstatus, hreference, by omega⟩
    · cases hrest
  · rintro ⟨rfl, hstatus, hreference, hlt⟩
    refine ⟨hrefunded, ?_⟩
    rw [heligible, if_pos (hrefundable.mpr ⟨hstatus, by omega, hreference⟩), hleft, h.paid]
    exact congrArg some (max_eq_left (by omega))

/-- Where each refund that succeeded is counted at all, the amounts add up if each is counted once. -/
theorem sum_eq_iff_perm (hrefunds : (refunds.map InvoiceRefund.id).Nodup) {all : List InvoiceRefund}
    (hcovered : ∀ refund ∈ refunds, refund.succeeded = true → refund ∈ all) :
    (all.map InvoiceRefund.amount).sum = succeededAmount refunds ↔
      all.Perm (refunds.filter InvoiceRefund.succeeded) := by
  have hsubset : refunds.filter InvoiceRefund.succeeded ⊆ all := fun refund hmem =>
    hcovered refund (List.mem_filter.mp hmem).1 (List.mem_filter.mp hmem).2
  obtain ⟨kept, hkept, hsublist⟩ :=
    List.subperm_of_subset ((List.Nodup.of_map _ hrefunds).filter _) hsubset
  obtain ⟨extra, hextra⟩ := hsublist.exists_perm_append
  have hperm := hextra.trans (hkept.append_right extra)
  have hsum := (hperm.map InvoiceRefund.amount).sum_eq
  rw [List.map_append, List.sum_append] at hsum
  constructor
  · intro h
    have hempty : extra = [] := by
      by_contra hne
      have hpos := sum_amounts_pos hne
      unfold succeededAmount at h
      omega
    simpa [hempty] using hperm
  · exact fun h => (h.map InvoiceRefund.amount).sum_eq

/-- The refunds of an invoice are accounted for where what is reported adds up; and where no refund
that succeeded is left out, where each of them is reported once and no other is. -/
theorem refunds_accounted_iff (hrefunds : (refunds.map InvoiceRefund.id).Nodup)
    (hrow : t.row (.billing parent) = some row)
    (hnone : amountValue row.latestInvoice.amountRefunded = 0)
    (heligible : row.refundSummary.eligibleAmount = (refundReadiness (some row)).eligibleAmount)
    (hcarries : List.Forall₂ (Carries parent refunds) ds counted) (hunseen : Unseen t parent ds)
    (hdistinct : DistinctEvents ds) (h : Delivered t ds t') :
    ∃ row', t'.row (.billing parent) = some row' ∧
      (Accounted refunds row' ↔
        (counted.flatten.map InvoiceRefund.amount).sum = succeededAmount refunds ∧ Remains refunds ds row) ∧
      ((∀ refund ∈ refunds, refund.succeeded = true → refund ∈ counted.flatten) →
        (Accounted refunds row' ↔
          counted.flatten.Perm (refunds.filter InvoiceRefund.succeeded) ∧ Remains refunds ds row)) := by
  obtain ⟨row', hrow', hadds⟩ := h.adds hcarries hunseen hdistinct hrow heligible
  have haccounted := hadds.accounted_iff refunds hnone
  exact ⟨row', hrow', haccounted, fun hcovered => by
    rw [haccounted, sum_eq_iff_perm hrefunds hcovered]⟩

end

namespace RefundTotalSample

def billing : BillingRow where
  parentId := "parent"
  requestedTier := some "family"
  subscriptionTier := some "family"
  billingStatus := some "active"
  latestInvoice := {
    providerInvoiceId := some "in_1"
    providerChargeId := some "ch_1"
    amountPaid := some 1500 }
  refundSummary := {
    eligible := some true
    eligibleAmount := some 1500 }

def start : Table Key Row := Table.empty.apply [
  .putNew (.profile "parent") ⟨some "parent", some 1, some "family"⟩,
  .putNew (.accountFence "parent") ⟨"active", some 1⟩,
  .putNew (.billing "parent") billing,
  .putNew (.providerLookup "charge" "ch_1") ⟨"stripe", "charge", "ch_1", "parent", some "test", false, "2026-03-01"⟩]

def refund : InvoiceRefund := ⟨"re_1", 500, true, by decide⟩

def updatedEvent : ProviderEvent where
  eventId := "evt_1"
  eventType := "refund.updated"
  created := none
  object := {
    object := some "refund"
    id := some "re_1"
    charge := some "ch_1"
    status := some "succeeded"
    amount := some 500 }
  now := "2026-03-02"
  refundNow := "2026-03-02"
  hex := "0"
  cancelled := true

def createdEvent : ProviderEvent :=
  { updatedEvent with
    eventId := "evt_2"
    eventType := "refund.created" }

def deliver (d : Delivery) (t : Table Key Row) : Table Key Row := (d.handler.run.alone t).2

theorem carries_updated : Carries "parent" [refund] (.event updatedEvent) [refund] :=
  .refund _ .refundUpdated refund (by decide) (.inr (.inl rfl)) rfl rfl rfl rfl (by simp)

theorem carries_created : Carries "parent" [refund] (.event createdEvent) [refund] :=
  .refund _ .refundCreated refund (by decide) (.inl rfl) rfl rfl rfl rfl (by simp)

theorem leads_updated : updatedEvent.object.Of start "parent" := by
  have hids : updatedEvent.object.providerObjectIds = [("charge", "ch_1"), ("refund", "re_1")] := by decide +kernel
  refine .inr ⟨by decide, by decide, fun id hid lookup hlookup => ?_, ("charge", "ch_1"), ?_, by decide +kernel⟩
  · rw [hids] at hid
    rcases List.mem_pair.mp hid with rfl | rfl
    · have hrow : start.row (.providerLookup "charge" "ch_1") =
          some ⟨"stripe", "charge", "ch_1", "parent", some "test", false, "2026-03-01"⟩ := by decide
      cases hrow.symm.trans hlookup
      rfl
    · have hrow : start.row (.providerLookup "refund" "re_1") = none := by decide
      cases hrow.symm.trans hlookup
  · rw [hids]
    exact List.mem_cons_self ..

theorem start_unnoted (at_ id : String) : start.row (.billingEvent "parent" at_ id) = none := by
  rw [start, Table.row_apply_of_notMem _ _ _ (by simp [Write.putNew, Write.put])]
  rfl

theorem unseen : Unseen start "parent" [.event updatedEvent, .event createdEvent] := by
  intro e he
  rcases List.mem_pair.mp he with he | he <;> cases he
  · exact ⟨leads_updated, by decide, fun at_ => start_unnoted at_ _⟩
  · exact ⟨leads_updated, by decide, fun at_ => start_unnoted at_ _⟩

end RefundTotalSample

theorem refund_accounted_once : ∃ row',
    (RefundTotalSample.deliver (.event RefundTotalSample.updatedEvent) RefundTotalSample.start).row (.billing "parent") = some row' ∧
      Accounted [RefundTotalSample.refund] row' := by
  obtain ⟨row', hrow', -, hiff⟩ := refunds_accounted_iff
    (by simp : ([RefundTotalSample.refund].map InvoiceRefund.id).Nodup)
    (by decide : RefundTotalSample.start.row (.billing "parent") = some RefundTotalSample.billing)
    rfl (by decide +kernel) (.cons RefundTotalSample.carries_updated .nil)
    (fun e he => RefundTotalSample.unseen e (List.mem_of_mem_head? (List.mem_singleton.mp he ▸ rfl)))
    (List.pairwise_singleton _ _) (.first (by decide) (.nil _))
  refine ⟨row', hrow', (hiff fun refund hmem _ => hmem).mpr ⟨.refl _, ?_⟩⟩
  exact ⟨by decide, .inl (by decide), by decide⟩

/-- One refund that two events report is counted twice. -/
theorem refund_accounted_twice : ∃ t' row',
    DistinctEvents [.event RefundTotalSample.updatedEvent, .event RefundTotalSample.createdEvent] ∧
    Unseen RefundTotalSample.start "parent" [.event RefundTotalSample.updatedEvent, .event RefundTotalSample.createdEvent] ∧
    List.Forall₂ (Carries "parent" [RefundTotalSample.refund])
      [.event RefundTotalSample.updatedEvent, .event RefundTotalSample.createdEvent]
      [[RefundTotalSample.refund], [RefundTotalSample.refund]] ∧
    Delivered RefundTotalSample.start [.event RefundTotalSample.updatedEvent, .event RefundTotalSample.createdEvent] t' ∧
    t'.row (.billing "parent") = some row' ∧
    amountValue row'.latestInvoice.amountRefunded = 1000 ∧ ¬ Accounted [RefundTotalSample.refund] row' := by
  let t' := RefundTotalSample.deliver (.event RefundTotalSample.createdEvent)
    (RefundTotalSample.deliver (.event RefundTotalSample.updatedEvent) RefundTotalSample.start)
  have hcounted : (t'.row (.billing "parent")).any
      (fun row => amountValue row.latestInvoice.amountRefunded = 1000) = true := by decide
  obtain ⟨row', hrow', hamount⟩ := (Option.any_eq_true _ _).mp hcounted
  refine ⟨t', row', ?_, RefundTotalSample.unseen,
    .cons RefundTotalSample.carries_updated (.cons RefundTotalSample.carries_created .nil),
    .first (by decide) (.first (by decide) (.nil _)), hrow', of_decide_eq_true hamount, fun h => ?_⟩
  · simp [DistinctEvents, Delivery.id, RefundTotalSample.updatedEvent, RefundTotalSample.createdEvent]
  · have hfive : succeededAmount [RefundTotalSample.refund] = 500 := by decide
    have htotal := h.refunded
    rw [of_decide_eq_true hamount, hfive] at htotal
    cases htotal

end Stoa.Subscription
