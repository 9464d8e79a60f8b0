import Stoa.Model.AccountFence
import Stoa.Store.Handler
import Mathlib.Data.List.Sort

/-! # Subscription rows

What the subscription service keeps for a parent: the requests to change a plan
with their open guard, and the billing row that provider events and refunds
rewrite.

A read that is not strongly consistent answers what was stored some time before;
where it is the first of its call, that is a call which started earlier. -/

namespace Stoa.Subscription

open RowStore

/-- What a call raises instead of returning. -/
inductive Raised where
  | http (statusCode : ℕ) (detail : String)
  | accountDeletionConflict (message : String)
  /-- The table's own exception. -/
  | clientError
  deriving DecidableEq, Repr

/-! ## Rows -/

/-- The statuses of a subscription request. -/
inductive RequestStatus where
  | requested
  | inReview
  | approved
  | applied
  | rejected
  | cancelled
  deriving DecidableEq, Repr

structure EventRow where
  entityType : String
  eventId : String
  requestId : String
  eventType : RequestStatus
  eventAt : String
  actorId : String
  actorRole : String
  note : Option String
  changes : List (String × Option String)
  deriving DecidableEq

structure RequestRow where
  entityType : String
  requestId : String
  parentId : String
  currentTier : String
  requestedTier : String
  requestType : String
  status : RequestStatus
  source : String
  parentNote : Option String
  adminNote : Option String
  createdAt : String
  updatedAt : String
  effectiveAt : Option String
  appliedAt : Option String
  appliedBy : Option String
  history : List EventRow
  deriving DecidableEq

structure OpenGuardRow where
  entityType : String
  parentId : String
  requestId : String
  status : RequestStatus
  createdAt : String
  updatedAt : String
  deriving DecidableEq

structure ProfileRow where
  role : Option String
  version : Option ℤ
  subscriptionTier : Option String
  deriving DecidableEq

/-- `latest_invoice` -/
structure Invoice where
  providerInvoiceId : Option String := none
  providerSubscriptionId : Option String := none
  providerPaymentIntentId : Option String := none
  providerChargeId : Option String := none
  hostedInvoiceUrl : Option String := none
  receiptUrl : Option String := none
  invoiceStatus : Option String := none
  currency : Option String := none
  amountDue : Option ℤ := none
  amountPaid : Option ℤ := none
  amountRemaining : Option ℤ := none
  amountRefunded : Option ℤ := none
  taxAmount : Option ℤ := none
  taxStatus : Option String := none
  periodStart : Option String := none
  periodEnd : Option String := none
  paymentMethodType : Option String := none
  reconciliationId : Option String := none
  paidAt : Option String := none
  deriving DecidableEq

/-- `refund_summary` -/
structure RefundSummary where
  eligible : Option Bool := none
  state : Option String := none
  providerHandoffState : Option String := none
  eligibleAmount : Option ℤ := none
  refundedAmount : Option ℤ := none
  currency : Option String := none
  requiresReason : Option Bool := none
  providerInvoiceId : Option String := none
  providerChargeId : Option String := none
  providerPaymentIntentId : Option String := none
  providerRefundId : Option String := none
  reason : Option String := none
  idempotencyKey : Option String := none
  requestedBy : Option String := none
  requestedAt : Option String := none
  updatedAt : Option String := none
  deriving DecidableEq

structure Dunning where
  state : String
  billingStatus : String
  providerInvoiceId : Option String
  invoiceStatus : Option String
  nextPaymentAttempt : Option String
  paymentMethodType : Option String
  supportAction : String
  deriving DecidableEq

/-- The stored billing row. An absent dictionary and an empty one read alike. -/
structure BillingRow where
  parentId : String
  subscriptionTier : Option String := none
  requestedTier : Option String := none
  billingProvider : Option String := none
  billingMode : Option String := none
  billingStatus : Option String := none
  providerLivemode : Bool := false
  readinessState : Option String := none
  readinessBlockers : List String := []
  twintInScope : Bool := false
  twintStatus : Option String := none
  paymentMethodType : Option String := none
  previousBillingStatus : Option String := none
  previousSubscriptionTier : Option String := none
  latestInvoice : Invoice := {}
  refundSummary : RefundSummary := {}
  providerCustomerId : Option String := none
  providerSubscriptionId : Option String := none
  providerPriceId : Option String := none
  checkoutSessionId : Option String := none
  checkoutUrl : Option String := none
  successUrl : Option String := none
  cancelUrl : Option String := none
  currentPeriodStart : Option String := none
  currentPeriodEnd : Option String := none
  cancelAtPeriodEnd : Bool := false
  lastProviderEventId : Option String := none
  lastProviderEventType : Option String := none
  lastProviderEventAt : Option String := none
  manualOverrideAt : Option String := none
  manualOverrideBy : Option String := none
  manualOverrideSource : Option String := none
  dunning : Option Dunning := none
  createdAt : Option String := none
  updatedAt : Option String := none
  deriving DecidableEq

structure BillingEventRow where
  parentId : String
  eventId : String
  eventType : String
  eventAt : String
  provider : String
  providerMode : Option String := none
  providerLivemode : Option Bool := none
  billingStatus : Option String := none
  processingResult : Option String := none
  idempotencyStatus : Option String := none
  requestedTier : Option String := none
  paymentMethodType : Option String := none
  twintStatus : Option String := none
  providerEventId : Option String := none
  providerEventAt : Option String := none
  providerRefundId : Option String := none
  requestId : Option String := none
  correlationId : Option String := none
  deriving DecidableEq

/-- The dedupe row of a provider event. -/
structure ProviderEventRow where
  provider : String
  providerEventId : String
  eventType : String
  parentId : String
  createdAt : String
  deriving DecidableEq

structure ProviderLookupRow where
  provider : String
  objectType : String
  objectId : String
  parentId : String
  providerMode : Option String
  providerLivemode : Bool
  createdAt : String
  deriving DecidableEq

/-- The statuses of a refund's idempotency row. -/
inductive RefundStatus where
  | inProgress
  | succeeded
  | failed
  deriving DecidableEq, Repr

structure RefundIdempotencyRow where
  parentId : String
  idempotencyKeyHash : Sha256
  status : RefundStatus
  amount : ℤ
  reason : String
  actor : String
  providerRefundId : Option String
  createdAt : String
  updatedAt : String
  deriving DecidableEq

structure PaymentRolloutRow where
  checkoutState : String
  refundsState : String
  reason : String
  updatedBy : String
  updatedAt : String
  deriving DecidableEq

/-- A refund that the provider has executed: what it was asked for, and for whom. -/
structure ProviderRefund where
  parentId : String
  providerChargeId : String
  providerPaymentIntentId : String
  amount : ℤ
  reason : String
  deriving DecidableEq

inductive Key where
  | request (requestId : String)
  | requestEvent (requestId eventAt eventId : String)
  | openGuard (parentId : String)
  | profile (userId : String)
  | accountFence (userId : String)
  | billing (parentId : String)
  | billingEvent (parentId eventAt eventId : String)
  | providerEvent (eventId : String)
  | providerLookup (objectType objectId : String)
  | refundIdempotency (parentId : String) (digest : Sha256)
  | paymentRollout
  /-- Not a row of the table: the refunds that the provider keeps by their key. -/
  | providerRefund (idempotencyKey : String)
  deriving DecidableEq

abbrev Row : Key → Type
  | .request _ => RequestRow
  | .requestEvent _ _ _ => EventRow
  | .openGuard _ => OpenGuardRow
  | .profile _ => ProfileRow
  | .accountFence _ => FenceRow
  | .billing _ => BillingRow
  | .billingEvent _ _ _ => BillingEventRow
  | .providerEvent _ => ProviderEventRow
  | .providerLookup _ _ => ProviderLookupRow
  | .refundIdempotency _ _ => RefundIdempotencyRow
  | .paymentRollout => PaymentRolloutRow
  | .providerRefund _ => ProviderRefund

/-! ## Values -/

inductive SubscriptionTier where
  | freeTrial
  | student
  | teacherSupported
  | family
  deriving DecidableEq, Repr

namespace SubscriptionTier

def value : SubscriptionTier → String
  | freeTrial => "free_trial"
  | student => "student"
  | teacherSupported => "teacher_supported"
  | family => "family"

def all : List SubscriptionTier := [freeTrial, student, teacherSupported, family]

/-- `_tier_rank` -/
def rank : SubscriptionTier → ℕ
  | freeTrial => 0
  | student => 1
  | teacherSupported => 2
  | family => 3

end SubscriptionTier

/-- A value that is not falsy: an empty text counts as none. -/
def truthy (value : Option String) : Option String := value.filter (· ≠ "")

def normalizeTier (value : Option String) : Except Raised SubscriptionTier :=
  let raw := (truthy value).getD SubscriptionTier.freeTrial.value
  match SubscriptionTier.all.find? (·.value = raw) with
  | some tier => .ok tier
  | none => .error (.http 400 ("Invalid subscription tier: " ++ raw))

/-- `_clean_note` -/
def cleanNote (value : Option String) : Option String :=
  truthy (value.map fun note =>
    " ".intercalate (((note.toList.splitOnP isSpace).filter (· ≠ [])).map String.ofList))

structure User where
  sub : Option String
  username : Option String
  role : Option String

/-- `_actor_id` -/
def User.actorId (user : User) : String :=
  ((truthy user.sub).orElse fun _ => truthy user.username).getD "admin"

def User.actorRole (user : User) : String := (truthy user.role).getD "admin"

/-! ## Access -/

abbrev Handler (α : Type) := RowStore.Handler Key Row Raised α

def get (key : Key) : Handler (Option (Row key)) := RowStore.Handler.get .clientError key

/-- `_transact_write`, where a transaction that is cancelled means a conflict. -/
def transactWrite (operations : List (Write Key Row)) (cancelled : Bool) (detail : String) :
    Handler Unit := do
  if ← RowStore.Handler.submit operations then return ()
  else throw (if cancelled then .http 409 detail else .clientError)

/-- `_subscription_put` -/
def putItem (key : Key) (item : Row key) : Handler Unit := do
  if ← RowStore.Handler.submit [.put key item fun _ => true] then return ()
  else throw .clientError

def requireParent (parent : String) : Handler ProfileRow := do
  match ← get (.profile parent) with
  | some profile =>
    if profile.role = some "parent" then return profile
    else throw (.http 404 "Parent profile not found")
  | none => throw (.http 404 "Parent profile not found")

/-- `_versioned_profile_operations`, for the update of the tier. -/
def versionedProfileOperations (user : String) (profile : ProfileRow) (tier : String) :
    Handler (List (Write Key Row)) := do
  match requireActiveAccountFence (← get (.accountFence user)) none with
  | none => throw (.accountDeletionConflict "account is not writable")
  | some generation =>
    if profile.version.any (· < 1) then throw (.accountDeletionConflict "malformed profile version")
    else return [
      .check (.accountFence user) (activeFenceCondition (some generation)),
      .modify (.profile user)
        (fun stored =>
          { stored with
            version := some (profile.version.elim 1 (· + 1))
            subscriptionTier := some tier })
        fun stored => stored.version = profile.version]

def getBillingItem (parent : String) : Handler (Option BillingRow) := get (.billing parent)

/-- `_put_billing_event` -/
def putBillingEvent (event : BillingEventRow) : Handler Unit :=
  putItem (.billingEvent event.parentId event.eventAt event.eventId) event

end Stoa.Subscription
