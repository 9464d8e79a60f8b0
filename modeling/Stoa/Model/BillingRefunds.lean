import Stoa.Model.Subscription
import Stoa.Store.Interleaving

/-! # Direct refunds

An operator refunds a part of the latest invoice: the amount is checked against
the billing row, the idempotency key is reserved, the provider is asked, and the
billing row is rewritten, one after another. -/

namespace Stoa.Subscription

open RowStore

/-- What refunds take from outside: digests of keys, and times read from texts. -/
structure RefundEnv where
  keyHash : String → Sha256
  parseIso : String → Option Instant

variable (env : RefundEnv)

/-- 180 days, in microseconds. -/
def TWINT_REFUND_WINDOW : ℤ := 180 * 24 * 3600 * 1000000

structure RefundSettings where
  stripeRefundsEnabled : Bool
  isProduction : Bool
  stripeApiKey : String

/-- A refund as the provider describes it. -/
structure ProviderRefundObject where
  id : Option String
  status : Option String
  currency : Option String
  charge : Option String
  paymentIntent : Option String
  invoice : Option String

/-- The arguments of `execute_billing_refund`, with what the call meets: its
times, and what the provider answers if it accepts. -/
structure RefundRequest where
  parentId : String
  amount : ℤ
  reason : String
  idempotencyKey : String
  user : User
  settings : RefundSettings
  clock : Instant
  now : String
  failedAt : String
  appliedAt : String
  refundHex : String
  providerRefund : ProviderRefundObject
  cancelled : Bool

/-- The arguments once they are checked. -/
structure Refund where
  request : RefundRequest
  amount : ℤ
  reason : String
  idempotencyKey : String
  positive : 0 < amount

def stripText (text : String) : String := String.ofList (strip text.toList)

/-- `_provider_id_value`, where an empty identity is none. -/
def providerIdValue (value : Option String) : Option String := truthy (value.map stripText)

def RefundRequest.checked (r : RefundRequest) : Except Raised Refund :=
  if h : 0 < r.amount then
    if stripText r.reason = "" then .error (.http 422 "Refund reason is required")
    else if (stripText r.idempotencyKey).length < 8 then
      .error (.http 422 "Refund idempotency key must be at least 8 characters")
    else .ok {
      request := r
      amount := r.amount
      reason := String.ofList ((stripText r.reason).toList.take 500)
      idempotencyKey := String.ofList ((stripText r.idempotencyKey).toList.take 200)
      positive := h }
  else .error (.http 422 "Refund amount must be positive")

/-! ## What may be refunded -/

/-- `_amount_value(…, 0) or 0` -/
def amountValue (value : Option ℤ) : ℤ := value.getD 0

def REFUNDABLE_STATUSES : List String := ["active", "past_due", "payment_failed"]

def Invoice.hasProviderReference (invoice : Invoice) : Bool :=
  (truthy invoice.providerChargeId).isSome ∨ (truthy invoice.providerPaymentIntentId).isSome ∨
    (truthy invoice.providerInvoiceId).isSome

def eligibleAmount (invoice : Invoice) : ℤ :=
  max (amountValue invoice.amountPaid - amountValue invoice.amountRefunded) 0

def isRefundable (item : BillingRow) : Bool :=
  item.billingStatus.any (· ∈ REFUNDABLE_STATUSES) ∧ 0 < eligibleAmount item.latestInvoice ∧
    item.latestInvoice.hasProviderReference

/-- `_refund_readiness` -/
def refundReadiness : Option BillingRow → RefundSummary
  | none => {
      eligible := some false
      state := some "not_eligible"
      providerHandoffState := some "not_eligible"
      requiresReason := some true }
  | some item =>
    let state := if isRefundable item then "ready_for_provider" else "not_eligible"
    { eligible := some (isRefundable item)
      state := some state
      providerHandoffState := some state
      eligibleAmount := if isRefundable item then some (eligibleAmount item.latestInvoice) else none
      currency := item.latestInvoice.currency
      requiresReason := some true
      providerInvoiceId := item.latestInvoice.providerInvoiceId
      providerChargeId := item.latestInvoice.providerChargeId
      providerPaymentIntentId := item.latestInvoice.providerPaymentIntentId }

/-- `_twint_refund_window_open` -/
def twintRefundWindowOpen (item : BillingRow) (now : Instant) : Bool :=
  let invoice := item.latestInvoice
  let method := ((truthy item.paymentMethodType).orElse fun _ => truthy invoice.paymentMethodType).getD ""
  if method.toLower ≠ "twint" then true
  else
    let paidAt := (truthy invoice.paidAt).orElse fun _ =>
      (truthy item.lastProviderEventAt).orElse fun _ => truthy item.updatedAt
    match paidAt.bind env.parseIso with
    | none => true
    | some paidAt => now ≤ paidAt + TWINT_REFUND_WINDOW

/-! ## The idempotency row -/

namespace Refund

/-- `_refund_idempotency_item` -/
def idempotencyItem (v : Refund) (status : RefundStatus) (at_ : String)
    (providerRefundId : Option String) : RefundIdempotencyRow where
  parentId := v.request.parentId
  idempotencyKeyHash := env.keyHash v.idempotencyKey
  status := status
  amount := v.amount
  reason := v.reason
  actor := v.request.user.actorId
  providerRefundId := providerRefundId
  createdAt := at_
  updatedAt := at_

/-- `_reserve_refund_idempotency` -/
def reserve (v : Refund) : Handler Unit :=
  transactWrite
    [.putNew (.refundIdempotency v.request.parentId (env.keyHash v.idempotencyKey))
      (v.idempotencyItem env .inProgress v.request.now none)]
    v.request.cancelled "Refund idempotency key is already in use"

def recordFailure (v : Refund) : Handler Unit :=
  putItem (.refundIdempotency v.request.parentId (env.keyHash v.idempotencyKey))
    (v.idempotencyItem env .failed v.request.failedAt none)

def recordSuccess (v : Refund) (providerRefundId : Option String) : Handler Unit :=
  putItem (.refundIdempotency v.request.parentId (env.keyHash v.idempotencyKey))
    (v.idempotencyItem env .succeeded v.request.now providerRefundId)

/-! ## The provider -/

/-- What the provider is asked for. -/
def providerRequest (v : Refund) (existing : BillingRow) : ProviderRefund where
  parentId := v.request.parentId
  providerChargeId := existing.latestInvoice.providerChargeId.getD ""
  providerPaymentIntentId :=
    if existing.latestInvoice.providerChargeId.getD "" = "" then
      existing.latestInvoice.providerPaymentIntentId.getD "" else ""
  amount := v.amount
  reason := v.reason

/-- `_create_provider_refund`. A key is executed once; asked again for the same,
the provider answers what it has executed, and it refuses anything else. -/
def createProviderRefund (v : Refund) (existing : BillingRow) : Handler Bool :=
  RowStore.Handler.submit [{
    key := .providerRefund v.idempotencyKey
    condition := Option.all fun refund => refund = v.providerRequest existing
    action := fun stored => some (stored.getD (v.providerRequest existing)) }]

/-! ## The billing row -/

def providerRefundId (v : Refund) : String :=
  (providerIdValue v.request.providerRefund.id).getD ("refund_" ++ v.request.refundHex)

/-- The invoice with the amount added to what has been refunded. -/
def refundedInvoice (v : Refund) (invoice : Invoice) : Invoice :=
  let refunded := amountValue invoice.amountRefunded + v.amount
  { invoice with
    amountRefunded := some refunded
    amountRemaining := some (max (amountValue invoice.amountPaid - refunded) 0) }

def refundSummary (v : Refund) (existing : BillingRow) : RefundSummary :=
  let invoice := v.refundedInvoice existing.latestInvoice
  let provider := v.request.providerRefund
  let state := (truthy provider.status).getD "requested"
  { refundReadiness (some { existing with latestInvoice := invoice }) with
    state := some state
    providerHandoffState := some state
    refundedAmount := some v.amount
    currency := some (((truthy provider.currency).orElse fun _ => truthy invoice.currency).getD
      "CHF").toUpper
    requiresReason := some false
    providerRefundId := some v.providerRefundId
    providerChargeId := (providerIdValue provider.charge).or invoice.providerChargeId
    providerPaymentIntentId :=
      (providerIdValue provider.paymentIntent).or invoice.providerPaymentIntentId
    providerInvoiceId := (providerIdValue provider.invoice).or invoice.providerInvoiceId
    reason := some v.reason
    idempotencyKey := some v.idempotencyKey
    requestedBy := some v.request.user.actorId
    requestedAt := some v.request.now
    updatedAt := some v.request.appliedAt }

def updatedItem (v : Refund) (existing : BillingRow) : BillingRow :=
  { existing with
    parentId := v.request.parentId
    latestInvoice := v.refundedInvoice existing.latestInvoice
    refundSummary := v.refundSummary existing
    updatedAt := some v.request.appliedAt }

def event (v : Refund) (updated : BillingRow) : BillingEventRow where
  parentId := v.request.parentId
  eventId := "direct_refund_" ++ v.providerRefundId
  eventType := "direct_refund.created"
  eventAt := v.request.appliedAt
  provider := "stripe"
  providerMode := updated.billingMode
  providerLivemode := some updated.providerLivemode
  billingStatus := updated.billingStatus
  processingResult := some "processed"
  idempotencyStatus := some "new"
  providerRefundId := some v.providerRefundId
  requestId := some v.idempotencyKey
  requestedTier := updated.requestedTier
  paymentMethodType := updated.paymentMethodType
  twintStatus := updated.twintStatus

def lookup (v : Refund) (updated : BillingRow) : ProviderLookupRow where
  provider := "stripe"
  objectType := "refund"
  objectId := v.providerRefundId
  parentId := v.request.parentId
  providerMode := updated.billingMode
  providerLivemode := updated.providerLivemode
  createdAt := v.request.appliedAt

def operations (v : Refund) (existing : BillingRow) : List (Write Key Row) :=
  let updated := v.updatedItem existing
  let event := v.event updated
  [.put (.billing v.request.parentId) updated fun _ => true,
    .putNew (.billingEvent v.request.parentId event.eventAt event.eventId) event,
    .put (.providerLookup "refund" v.providerRefundId) (v.lookup updated) fun _ => true]

/-- `_apply_direct_refund_result` -/
def applyDirectRefundResult (v : Refund) (existing : BillingRow) : Handler BillingRow := do
  if ← RowStore.Handler.submit (v.operations existing) then return v.updatedItem existing
  else throw .clientError

end Refund

/-! ## Execution -/

/-- The answer, without the events and the entitlements that are listed with it. -/
structure RefundResponse where
  idempotencyStatus : String
  refund : RefundSummary
  billing : Option BillingRow

/-- `_refund_execution_response` -/
def refundExecutionResponse (parent : String) : Handler RefundResponse := do
  let _ ← requireParent parent
  let item ← getBillingItem parent
  return {
    idempotencyStatus := "replayed"
    refund := match item with
      | some row => if row.refundSummary = {} then refundReadiness item else row.refundSummary
      | none => refundReadiness none
    billing := item }

def PAYMENT_ROLLOUT_STATES : List String := ["disabled", "canary", "enabled", "rolled_back"]

/-- `_get_payment_rollout_item`, which takes a read that raises for no row. -/
def getPaymentRolloutItem : Handler (Option PaymentRolloutRow) :=
  ExceptT.mk (.read .paymentRollout fun found => .ret (.ok (found.bind id)))

/-- The state of refunds in `get_payment_rollout_controls`. -/
def refundsState (settings : RefundSettings) (item : Option PaymentRolloutRow) : String :=
  let state := match item with
    | some row => row.refundsState
    | none => if settings.stripeRefundsEnabled then "enabled" else "disabled"
  if state ∈ PAYMENT_ROLLOUT_STATES then state else "disabled"

namespace Refund

/-- Whether the billing row that was read allows the refund. -/
def readiness (v : Refund) (existing : Option BillingRow) : Except Raised BillingRow :=
  match existing with
  | none => .error (.http 409 "Billing record is not refundable")
  | some item =>
    if ¬ isRefundable item then .error (.http 409 "Billing record is not refundable")
    else if eligibleAmount item.latestInvoice < v.amount then
      .error (.http 409 "Refund amount exceeds remaining refundable amount")
    else if ¬ twintRefundWindowOpen env item v.request.clock then
      .error (.http 409 "TWINT refund window has expired")
    else .ok item

/-- What follows once the provider has executed the refund. -/
def record (v : Refund) (existing : BillingRow) : Handler RefundResponse := do
  let updated ← v.applyDirectRefundResult existing
  v.recordSuccess env updated.refundSummary.providerRefundId
  return {
    idempotencyStatus := "new"
    refund := updated.refundSummary
    billing := some updated }

/-- What follows if the provider raises. -/
def fail (v : Refund) : Handler RefundResponse := do
  v.recordFailure env
  throw (.http 502 "Stripe refund creation failed")

/-- The provider is asked for a refund of the billing row that was read. -/
def execute (v : Refund) (existing : BillingRow) : Handler RefundResponse := do
  if ← v.createProviderRefund existing then v.record env existing
  else v.fail env

def run (v : Refund) : Handler RefundResponse := do
  match ← get (.refundIdempotency v.request.parentId (env.keyHash v.idempotencyKey)) with
  | some _ => refundExecutionResponse v.request.parentId
  | none =>
    let rollout ← getPaymentRolloutItem
    if refundsState v.request.settings rollout ≠ "enabled" then
      throw (.http 409 "Direct refund execution is not enabled")
    else if v.request.settings.isProduction ∧
        ¬ (stripText v.request.settings.stripeApiKey).startsWith "sk_live_" then
      throw (.http 503 "Live Stripe API key is required for direct refunds")
    else
      let existing ← getBillingItem v.request.parentId
      let existing ← RowStore.Handler.of (v.readiness env existing)
      v.reserve env
      v.execute env existing

end Refund

def executeBillingRefund (r : RefundRequest) : Handler RefundResponse := do
  let _ ← requireParent r.parentId
  let v ← RowStore.Handler.of r.checked
  v.run env

/-! ## The service -/

/-- The rows that refunds rely on, and the refunds of the provider. -/
def IsRefundRow : Key → Prop
  | .billing _ => True
  | .refundIdempotency _ _ => True
  | .providerRefund _ => True
  | _ => False

/-- Any number of refunds, and other code that leaves billing rows alone. -/
def refundService (faults : Faults) :
    Service Key Row RefundRequest (Except Raised RefundResponse) where
  body := fun r => (executeBillingRefund env r).run
  mayStart := fun _ _ => True
  drift := fun t t' => t'.AgreesOn IsRefundRow t
  faults := faults

end Stoa.Subscription
