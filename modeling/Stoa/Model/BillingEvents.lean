import Stoa.Model.BillingRefunds

/-! # Provider events

The projection of provider events on the billing row: the parent is resolved from
the event's object, an event that was seen is only noted, and any other rewrites
the row in one transaction with its own dedupe row. -/

namespace Stoa.Subscription

open RowStore

/-! ## Events -/

/-- `PROVIDER_EVENT_TYPES` -/
inductive ProviderEventType where
  | checkoutSessionCompleted
  | checkoutSessionExpired
  | customerSubscriptionCreated
  | customerSubscriptionUpdated
  | customerSubscriptionDeleted
  | invoicePaid
  | invoicePaymentFailed
  | chargeRefunded
  | refundCreated
  | refundUpdated
  | refundFailed
  | customerUpdated
  deriving DecidableEq, Repr

namespace ProviderEventType

def value : ProviderEventType → String
  | checkoutSessionCompleted => "checkout.session.completed"
  | checkoutSessionExpired => "checkout.session.expired"
  | customerSubscriptionCreated => "customer.subscription.created"
  | customerSubscriptionUpdated => "customer.subscription.updated"
  | customerSubscriptionDeleted => "customer.subscription.deleted"
  | invoicePaid => "invoice.paid"
  | invoicePaymentFailed => "invoice.payment_failed"
  | chargeRefunded => "charge.refunded"
  | refundCreated => "refund.created"
  | refundUpdated => "refund.updated"
  | refundFailed => "refund.failed"
  | customerUpdated => "customer.updated"

def all : List ProviderEventType := [
  checkoutSessionCompleted, checkoutSessionExpired, customerSubscriptionCreated,
  customerSubscriptionUpdated, customerSubscriptionDeleted, invoicePaid, invoicePaymentFailed,
  chargeRefunded, refundCreated, refundUpdated, refundFailed, customerUpdated]

def IsRefund (kind : ProviderEventType) : Prop :=
  kind = chargeRefunded ∨ kind = refundCreated ∨ kind = refundUpdated ∨ kind = refundFailed

instance (kind : ProviderEventType) : Decidable kind.IsRefund :=
  inferInstanceAs (Decidable (_ ∨ _))

end ProviderEventType

/-- A time in seconds, with the text that `_timestamp_to_iso` makes of it. -/
structure ProviderTime where
  seconds : ℤ
  iso : Option String
  deriving DecidableEq

/-- The object of an event, as far as it is read. It names other objects by their
identities. Where a dictionary may be there without the entry that is read, the
entry is optional in it. -/
structure ProviderObject where
  object : Option String := none
  id : Option String := none
  livemode : Bool := false
  stoaParentId : Option String := none
  parentId : Option String := none
  requestedTier : Option String := none
  clientReferenceId : Option String := none
  customer : Option String := none
  subscription : Option String := none
  invoice : Option String := none
  paymentIntent : Option String := none
  charge : Option String := none
  latestCharge : Option String := none
  refund : Option String := none
  status : Option String := none
  currency : Option String := none
  amount : Option ℤ := none
  amountRefunded : Option ℤ := none
  amountDue : Option ℤ := none
  amountPaid : Option ℤ := none
  amountRemaining : Option ℤ := none
  tax : Option ℤ := none
  hostedInvoiceUrl : Option String := none
  receiptUrl : Option String := none
  number : Option String := none
  price : Option (Option String) := none
  itemPrice : Option (Option String) := none
  paymentMethod : Option (Option String) := none
  paymentMethodDetails : Option (Option String) := none
  currentPeriodStart : Option ProviderTime := none
  currentPeriodEnd : Option ProviderTime := none
  periodStart : Option ProviderTime := none
  periodEnd : Option ProviderTime := none
  linePeriodStart : Option ProviderTime := none
  linePeriodEnd : Option ProviderTime := none
  nextPaymentAttempt : Option ProviderTime := none
  cancelAtPeriodEnd : Bool := false
  deriving DecidableEq

/-- A verified event, with the times and the random part that its processing meets. -/
structure ProviderEvent where
  eventId : String
  eventType : String
  created : Option ProviderTime
  object : ProviderObject
  now : String
  refundNow : String
  hex : String
  cancelled : Bool

/-- `_timestamp_to_iso` -/
def timestampToIso (time : Option ProviderTime) : Option String := time.bind ProviderTime.iso

/-- The first time, or the second where the first is missing or zero. -/
def timeOr (first second : Option ProviderTime) : Option ProviderTime :=
  (first.filter (·.seconds ≠ 0)).orElse fun _ => second

/-- The first amount, or the second where the first is missing or zero. -/
def amountOr (first second : Option ℤ) : Option ℤ :=
  (first.filter (· ≠ 0)).orElse fun _ => second

/-- `first or second` of texts -/
def textOr (first second : Option String) : Option String := (truthy first).orElse fun _ => second

namespace ProviderObject

variable (o : ProviderObject)

def objectType : String := o.object.getD ""

/-- `_parent_id_from_provider_object` -/
def parentIdFromProviderObject : Option String :=
  truthy (textOr o.stoaParentId (textOr o.parentId o.clientReferenceId))

/-- `_provider_object_ids`, without the empty ones. -/
def providerObjectIds : List (String × String) :=
  let own (objectType : String) (value : Option String) : Option String :=
    providerIdValue (if o.objectType = objectType then o.id else value)
  let session := if o.objectType = "checkout.session" then providerIdValue o.id else none
  [("customer", providerIdValue o.customer), ("subscription", own "subscription" o.subscription),
    ("invoice", own "invoice" o.invoice), ("payment_intent", own "payment_intent" o.paymentIntent),
    ("charge", own "charge" (textOr o.charge o.latestCharge)), ("refund", own "refund" o.refund),
    ("checkout_session", session)].filterMap fun (objectType, id) => id.map (objectType, ·)

/-- `_selected_payment_method_type_from_provider_object` -/
def selectedPaymentMethodType : Option String :=
  match o.paymentMethod with
  | some type => truthy type
  | none => o.paymentMethodDetails.bind truthy

/-- `_price_from_provider_object` -/
def priceId : Option String :=
  match o.price with
  | some price => price
  | none => o.itemPrice.join

/-- `_invoice_period` -/
def invoicePeriodStart : Option String := timestampToIso (timeOr o.periodStart o.linePeriodStart)

def invoicePeriodEnd : Option String := timestampToIso (timeOr o.periodEnd o.linePeriodEnd)

/-- The status of an invoice, with the one that its event stands for. -/
def invoiceStatus (kind : ProviderEventType) : Option String :=
  match kind with
  | .invoicePaid => textOr o.status (some "paid")
  | .invoicePaymentFailed => textOr o.status (some "payment_failed")
  | _ => o.status

/-- What an invoice with an identity says of the stored one. -/
def invoiceFields (kind : ProviderEventType) (existing : BillingRow) (providerInvoiceId : String) : Invoice :=
  let current := existing.latestInvoice
  { current with
    providerInvoiceId := some providerInvoiceId
    providerSubscriptionId := (providerIdValue o.subscription).or
      (textOr current.providerSubscriptionId existing.providerSubscriptionId)
    providerPaymentIntentId := (providerIdValue o.paymentIntent).or current.providerPaymentIntentId
    providerChargeId := (providerIdValue (textOr o.charge o.latestCharge)).or current.providerChargeId
    hostedInvoiceUrl := textOr o.hostedInvoiceUrl current.hostedInvoiceUrl
    receiptUrl := textOr o.receiptUrl current.receiptUrl
    invoiceStatus := textOr (o.invoiceStatus kind) current.invoiceStatus
    currency := some ((textOr o.currency (textOr current.currency (some "chf"))).getD "").toUpper
    amountDue := o.amountDue.or current.amountDue
    amountPaid := o.amountPaid.or current.amountPaid
    amountRemaining := o.amountRemaining.or current.amountRemaining
    amountRefunded := o.amountRefunded.or current.amountRefunded
    taxAmount := o.tax.or current.taxAmount
    taxStatus := some "provider_managed"
    periodStart := textOr o.invoicePeriodStart current.periodStart
    periodEnd := textOr o.invoicePeriodEnd current.periodEnd
    paymentMethodType := textOr o.selectedPaymentMethodType current.paymentMethodType
    reconciliationId := textOr o.number (some providerInvoiceId) }

/-- `_invoice_from_provider_object` -/
def invoiceOf (kind : ProviderEventType) (existing : BillingRow) : Invoice :=
  if o.objectType ≠ "invoice" ∧ (truthy o.invoice).isNone then existing.latestInvoice
  else
    let invoice : ProviderObject := if o.objectType = "invoice" then o else {}
    (providerIdValue (textOr invoice.id o.invoice)).elim existing.latestInvoice
      (invoice.invoiceFields kind existing)

/-- The state of a refund. -/
def refundState (kind : ProviderEventType) : String :=
  let status := stripText (o.status.getD "")
  if kind = .chargeRefunded then "succeeded"
  else if kind = .refundFailed then "failed"
  else if status = "canceled" then "cancelled"
  else if status ∈ ["succeeded", "failed", "cancelled"] then status
  else "requested"

/-- `_refund_from_provider_object` -/
def refundOf (kind : ProviderEventType) (existing : BillingRow) (now : String) : Option RefundSummary :=
  if kind.IsRefund then
    let current := existing.refundSummary
    some { current with
      state := some (o.refundState kind)
      providerHandoffState := some (o.refundState kind)
      refundedAmount := (amountOr o.amountRefunded o.amount).or current.refundedAmount
      currency := some ((textOr o.currency (textOr current.currency (some "chf"))).getD "").toUpper
      requiresReason := some false
      providerRefundId := (providerIdValue (textOr o.refund o.id)).or current.providerRefundId
      providerChargeId := (providerIdValue (textOr o.charge o.latestCharge)).or current.providerChargeId
      providerPaymentIntentId := (providerIdValue o.paymentIntent).or current.providerPaymentIntentId
      providerInvoiceId := (providerIdValue o.invoice).or current.providerInvoiceId
      updatedAt := some now }
  else none

end ProviderObject

/-! ## Transitions -/

/-- `_status_from_provider_subscription` -/
def statusFromProviderSubscription (status : Option String) : String :=
  match status.getD "" with
  | "trialing" => "active"
  | "active" => "active"
  | "past_due" => "past_due"
  | "unpaid" => "payment_failed"
  | "canceled" => "canceled"
  | "incomplete" => "checkout_pending"
  | "incomplete_expired" => "canceled"
  | _ => "provider_unknown"

/-- What an event says of the billing row. -/
structure BillingTransition where
  billingStatus : String
  subscriptionTier : Option String
  requestedTier : SubscriptionTier
  providerCustomerId : Option String
  providerSubscriptionId : Option String
  providerPriceId : Option String
  checkoutSessionId : Option String
  currentPeriodStart : Option String
  currentPeriodEnd : Option String
  cancelAtPeriodEnd : Bool
  paymentMethodType : Option String
  latestInvoice : Invoice
  refund : Option RefundSummary
  nextPaymentAttempt : Option String

/-- The status that follows an event, and the tier that goes with it. -/
def transitionStatus (kind : ProviderEventType) (o : ProviderObject) (existing : BillingRow) :
    String × Option String :=
  let status := (truthy existing.billingStatus).getD "none"
  let known := (truthy existing.billingStatus).getD "provider_unknown"
  match kind with
  | .checkoutSessionCompleted => ("checkout_pending", none)
  | .checkoutSessionExpired =>
    match truthy existing.previousBillingStatus with
    | some previous =>
      if previous ≠ "checkout_pending" then (previous, existing.previousSubscriptionTier)
      else if existing.billingStatus = some "checkout_pending" then ("canceled", none) else (status, none)
    | none => if existing.billingStatus = some "checkout_pending" then ("canceled", none) else (status, none)
  | .customerSubscriptionCreated => (statusFromProviderSubscription o.status, none)
  | .customerSubscriptionUpdated => (statusFromProviderSubscription o.status, none)
  | .customerSubscriptionDeleted => ("canceled", none)
  | .invoicePaid => ("active", none)
  | .invoicePaymentFailed => ("payment_failed", none)
  | .chargeRefunded => (known, none)
  | .refundCreated => (known, none)
  | .refundUpdated => (known, none)
  | .refundFailed => (known, none)
  | .customerUpdated => (known, none)

/-- `_billing_transition` -/
def billingTransition (kind : ProviderEventType) (o : ProviderObject) (existing : BillingRow)
    (refundNow : String) : Except Raised BillingTransition := do
  let requestedTier ← normalizeTier (textOr o.requestedTier existing.requestedTier)
  let (status, subscriptionTier) := transitionStatus kind o existing
  let invoiceStart := if o.objectType = "invoice" then o.invoicePeriodStart else none
  let invoiceEnd := if o.objectType = "invoice" then o.invoicePeriodEnd else none
  return {
    billingStatus := status
    subscriptionTier := subscriptionTier
    requestedTier := requestedTier
    providerCustomerId := textOr o.customer existing.providerCustomerId
    providerSubscriptionId := textOr o.subscription
      (textOr (if o.objectType = "subscription" then o.id else none) existing.providerSubscriptionId)
    providerPriceId := textOr o.priceId existing.providerPriceId
    checkoutSessionId := if o.objectType = "checkout.session" then o.id else existing.checkoutSessionId
    currentPeriodStart :=
      textOr (timestampToIso o.currentPeriodStart) (textOr invoiceStart existing.currentPeriodStart)
    currentPeriodEnd :=
      textOr (timestampToIso o.currentPeriodEnd) (textOr invoiceEnd existing.currentPeriodEnd)
    cancelAtPeriodEnd := o.cancelAtPeriodEnd
    paymentMethodType := textOr o.selectedPaymentMethodType existing.paymentMethodType
    latestInvoice := o.invoiceOf kind existing
    refund := o.refundOf kind existing refundNow
    nextPaymentAttempt := timestampToIso o.nextPaymentAttempt }

/-! ## Dunning -/

/-- `_dunning_support_action` -/
def dunningSupportAction (state : String) : String :=
  match state with
  | "none" => "none"
  | "active" => "none"
  | "checkout_pending" => "wait_for_provider_confirmation"
  | "past_due" => "monitor_provider_retry"
  | "payment_failed" => "contact_parent_or_wait_for_provider_retry"
  | "retrying" => "monitor_provider_retry"
  | "recovered" => "none"
  | "cancelled" => "confirm_access_and_support_history"
  | "manual_review" => "review_provider_billing_record"
  | _ => "review_provider_billing_record"

/-- `_dunning_projection` of a row -/
def dunningProjection (item : BillingRow) (nextPaymentAttempt previousStatus : Option String) : Dunning :=
  let status := (truthy item.billingStatus).getD "none"
  let state :=
    if status = "none" then "none"
    else if status = "checkout_pending" then "checkout_pending"
    else if status = "active" then
      if previousStatus = some "past_due" ∨ previousStatus = some "payment_failed" then "recovered"
      else "active"
    else if status = "past_due" then if (truthy nextPaymentAttempt).isSome then "retrying" else "past_due"
    else if status = "payment_failed" then
      if (truthy nextPaymentAttempt).isSome then "retrying" else "payment_failed"
    else if status = "canceled" then "cancelled"
    else "manual_review"
  { state := state
    billingStatus := status
    providerInvoiceId := item.latestInvoice.providerInvoiceId
    invoiceStatus := item.latestInvoice.invoiceStatus
    nextPaymentAttempt := nextPaymentAttempt
    paymentMethodType := textOr item.paymentMethodType item.latestInvoice.paymentMethodType
    supportAction := dunningSupportAction state }

/-! ## The billing row -/

namespace ProviderEvent

variable (e : ProviderEvent) (parent : String) (transition : BillingTransition) (existing : BillingRow)

/-- The status after the event; an override by hand stays. -/
def status : String :=
  if existing.billingStatus = some "manual_override" then "manual_override" else transition.billingStatus

def tier : String :=
  let manual := existing.billingStatus = some "manual_override"
  if ¬ manual ∧ transition.billingStatus = "active" then
    (truthy transition.subscriptionTier).getD transition.requestedTier.value
  else if ¬ manual ∧ transition.billingStatus = "canceled" then SubscriptionTier.freeTrial.value
  else (textOr transition.subscriptionTier (truthy existing.subscriptionTier)).getD
    SubscriptionTier.freeTrial.value

/-- The row before the refund and the dunning are worked out. -/
def projectedItem : BillingRow where
  parentId := parent
  subscriptionTier := some (tier transition existing)
  requestedTier := some transition.requestedTier.value
  billingProvider := some "stripe"
  billingMode := textOr existing.billingMode (some "test")
  billingStatus := some (status transition existing)
  providerLivemode := existing.providerLivemode || e.object.livemode
  readinessState := existing.readinessState
  readinessBlockers := existing.readinessBlockers
  twintInScope := true
  twintStatus := existing.twintStatus
  paymentMethodType := transition.paymentMethodType
  previousBillingStatus := existing.previousBillingStatus
  previousSubscriptionTier := existing.previousSubscriptionTier
  latestInvoice := if transition.latestInvoice = {} then existing.latestInvoice else transition.latestInvoice
  refundSummary := transition.refund.getD existing.refundSummary
  providerCustomerId := transition.providerCustomerId
  providerSubscriptionId := transition.providerSubscriptionId
  providerPriceId := transition.providerPriceId
  checkoutSessionId := transition.checkoutSessionId
  checkoutUrl := existing.checkoutUrl
  successUrl := existing.successUrl
  cancelUrl := existing.cancelUrl
  currentPeriodStart := transition.currentPeriodStart
  currentPeriodEnd := transition.currentPeriodEnd
  cancelAtPeriodEnd := transition.cancelAtPeriodEnd
  lastProviderEventId := some e.eventId
  lastProviderEventType := some e.eventType
  lastProviderEventAt := textOr (timestampToIso e.created) (some e.now)
  manualOverrideAt := existing.manualOverrideAt
  manualOverrideBy := existing.manualOverrideBy
  manualOverrideSource := existing.manualOverrideSource
  createdAt := textOr existing.createdAt (some e.now)
  updatedAt := some e.now

/-- The row with the amount of a refund added to its invoice. -/
def withRefund (refund : RefundSummary) (item : BillingRow) : BillingRow :=
  let refundedAmount := amountValue refund.refundedAmount
  let item :=
    { item with
      latestInvoice :=
        { item.latestInvoice with
          amountRefunded := some (amountValue item.latestInvoice.amountRefunded + refundedAmount) } }
  let readiness := refundReadiness (some item)
  { item with
    refundSummary :=
      { readiness with
        state := textOr refund.state readiness.state
        providerHandoffState := textOr refund.providerHandoffState readiness.providerHandoffState
        providerRefundId := refund.providerRefundId
        refundedAmount := some refundedAmount
        updatedAt := refund.updatedAt } }

def withoutRefund (item : BillingRow) : BillingRow :=
  { item with
    refundSummary :=
      if (truthy existing.refundSummary.providerRefundId).isSome then existing.refundSummary
      else refundReadiness (some item) }

/-- The row that `_apply_billing_transition` writes. -/
def appliedItem : BillingRow :=
  let item := e.projectedItem parent transition existing
  let item := match transition.refund with
    | some refund => withRefund refund item
    | none => withoutRefund existing item
  let nextPaymentAttempt :=
    textOr transition.nextPaymentAttempt (existing.dunning.bind Dunning.nextPaymentAttempt)
  { item with dunning := some (dunningProjection item nextPaymentAttempt existing.billingStatus) }

/-- The lookups of the objects that the event names: `_provider_lookup_rows_for_event`. -/
def lookupWrites (updated : BillingRow) : List (Write Key Row) :=
  e.object.providerObjectIds.map fun (objectType, objectId) =>
    .put (.providerLookup objectType objectId) {
      provider := "stripe"
      objectType := objectType
      objectId := objectId
      parentId := parent
      providerMode := updated.billingMode
      providerLivemode := updated.providerLivemode
      createdAt := e.now } fun _ => true

def billingEvent (updated : BillingRow) : BillingEventRow where
  parentId := parent
  eventId := "stripe_" ++ e.eventId
  eventType := e.eventType
  eventAt := e.now
  provider := "stripe"
  providerMode := updated.billingMode
  providerLivemode := some updated.providerLivemode
  billingStatus := updated.billingStatus
  processingResult :=
    some (if existing.lastProviderEventId = some e.eventId then "deduplicated" else "processed")
  idempotencyStatus := some "new"
  requestedTier := some transition.requestedTier.value
  paymentMethodType := transition.paymentMethodType
  twintStatus := updated.twintStatus
  providerEventId := some e.eventId

def dedupe : ProviderEventRow where
  provider := "stripe"
  providerEventId := e.eventId
  eventType := e.eventType
  parentId := parent
  createdAt := e.now

def operations (updated : BillingRow) (profileOperations : List (Write Key Row)) : List (Write Key Row) :=
  [.putNew (.providerEvent e.eventId) (e.dedupe parent),
    .put (.billing parent) updated fun _ => true,
    .putNew (.billingEvent parent e.now e.eventId) (e.billingEvent parent transition existing updated)] ++
  e.lookupWrites parent updated ++ profileOperations

/-- Where the tier follows the status, the parent's profile is written as well. -/
def profileOperations : Handler (List (Write Key Row)) := do
  if existing.billingStatus ≠ some "manual_override" ∧
      (transition.billingStatus = "active" ∨ transition.billingStatus = "canceled") then
    let profile ← requireParent parent
    versionedProfileOperations parent profile (tier transition existing)
  else return []

/-- `_apply_billing_transition` -/
def applyBillingTransition : Handler BillingRow := do
  let updated := e.appliedItem parent transition existing
  let profileOperations ← profileOperations parent transition existing
  if ← RowStore.Handler.submit (e.operations parent transition existing updated profileOperations) then
    return updated
  else if e.cancelled then return (← getBillingItem parent).getD updated
  else throw .clientError

/-! ## Handling -/

/-- The parent that a lookup names. -/
def lookedUp : List (String × String) → Handler (Option String)
  | [] => return none
  | (objectType, objectId) :: ids => do
    match ← get (.providerLookup objectType objectId) with
    | some lookup => if lookup.parentId ≠ "" then return some lookup.parentId else lookedUp ids
    | none => lookedUp ids

def scanned (ids : List (String × String)) (item : BillingRow) : Option String :=
  let names (objectType : String) (value : Option String) : Bool :=
    (ids.find? (·.1 = objectType)).any fun id => value = some id.2
  if names "customer" item.providerCustomerId ∨ names "subscription" item.providerSubscriptionId ∨
      names "checkout_session" item.checkoutSessionId then some item.parentId else none

/-- `_find_parent_id_for_provider_object` -/
def findParentId (ids : List (String × String)) : Handler (Option String) := do
  match ← lookedUp ids with
  | some parent => return some parent
  | none =>
    let rows ← RowStore.Handler.list Raised.clientError fun
      | .billing _ => true
      | _ => false
    return rows.findSome? fun
      | ⟨.billing _, item⟩ => scanned ids item
      | _ => none

def resolveParent : Handler (Option String) :=
  match e.object.parentIdFromProviderObject with
  | some parent => return some parent
  | none => findParentId e.object.providerObjectIds

/-- `_provider_processing_event` of an event that was seen. -/
def processingEvent : BillingEventRow where
  parentId := parent
  eventId := "stripe_deduplicated_" ++ e.eventId ++ "_" ++ e.hex
  eventType := e.eventType
  eventAt := e.now
  provider := "stripe"
  providerMode := textOr existing.billingMode (some "test")
  providerLivemode := some (existing.providerLivemode || e.object.livemode)
  billingStatus := textOr existing.billingStatus (some "none")
  processingResult := some "deduplicated"
  idempotencyStatus := some "replayed"
  requestedTier := existing.requestedTier
  paymentMethodType := existing.paymentMethodType
  twintStatus := existing.twintStatus
  providerEventId := some e.eventId
  providerEventAt := timestampToIso e.created
  correlationId := some ("stripe:" ++ e.eventId)

structure Projection where
  ignored : Bool := false
  deduplicated : Bool := false
  parentId : Option String := none
  billingStatus : Option String := none

/-- What follows once the parent is known. -/
def handleFor (kind : ProviderEventType) : Handler Projection := do
  let _ ← requireParent parent
  let existing := (← getBillingItem parent).getD { parentId := parent }
  match ← get (.providerEvent e.eventId) with
  | some _ =>
    putBillingEvent (e.processingEvent parent existing)
    return {
      deduplicated := true
      parentId := some parent
      billingStatus := textOr existing.billingStatus (some "none") }
  | none =>
    let transition ← RowStore.Handler.of (billingTransition kind e.object existing e.refundNow)
    let updated ← e.applyBillingTransition parent transition existing
    return { parentId := some parent, billingStatus := updated.billingStatus }

end ProviderEvent

/-- `_handle_verified_provider_event` -/
def handleVerifiedProviderEvent (e : ProviderEvent) : Handler ProviderEvent.Projection := do
  if e.eventId = "" ∨ e.eventType = "" then
    throw (.http 400 "Provider event id and type are required")
  else
    match ProviderEventType.all.find? (·.value = e.eventType) with
    | none => return { ignored := true }
    | some kind =>
      match truthy (← e.resolveParent) with
      | none => throw (.http 400 "Unable to resolve parent for provider event")
      | some parent => e.handleFor parent kind

end Stoa.Subscription
