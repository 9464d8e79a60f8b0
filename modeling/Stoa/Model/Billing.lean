import Stoa.Model.Relationships
import Stoa.Store.Interleaving

/-! # Billing rows

Checkout commands with their guards and lookups, provider facts and events, and
what an activation publishes. -/

namespace Stoa.Billing

open RowStore

/-! ## Enumerations -/

inductive CheckoutCommandState where
  | intentRecorded
  | providerCreatePending
  | providerSessionOpen
  | reconciling
  | activationRecorded
  | terminalWithoutPayment
  | operatorAttentionRequired
  deriving DecidableEq, Repr

/-- `_TERMINAL_STATES` -/
def CheckoutCommandState.IsTerminal (state : CheckoutCommandState) : Prop :=
  state = .activationRecorded ∨ state = .terminalWithoutPayment

instance (state : CheckoutCommandState) : Decidable state.IsTerminal :=
  inferInstanceAs (Decidable (_ ∨ _))

inductive ProviderEffectStatus where
  | notStarted
  | createClaimed
  | providerOutcomeUnknown
  | sessionAttached
  deriving DecidableEq, Repr

inductive ExpirationEffectStatus where
  | notStarted
  | expireClaimed
  | nonpayableProven
  | paymentReconciliationRequired
  | expirationOutcomeUnknown
  deriving DecidableEq, Repr

inductive BillingFactKind where
  | checkoutSessionCompleted
  | checkoutSessionExpired
  | invoicePaid
  | invoicePaymentFailed
  | subscriptionActive
  | subscriptionInactive
  deriving DecidableEq, Repr

def BillingFactKind.value : BillingFactKind → String
  | .checkoutSessionCompleted => "checkout_session_completed"
  | .checkoutSessionExpired => "checkout_session_expired"
  | .invoicePaid => "invoice_paid"
  | .invoicePaymentFailed => "invoice_payment_failed"
  | .subscriptionActive => "subscription_active"
  | .subscriptionInactive => "subscription_inactive"

inductive PurchasablePlanId where
  | student
  | teacherSupported
  | family
  deriving DecidableEq, Repr

def PurchasablePlanId.plan : PurchasablePlanId → BillingPlanId
  | .student => .student
  | .teacherSupported => .teacherSupported
  | .family => .family

/-! ## Checks on arguments -/

/-- `_required_text` with a least and a greatest length. -/
def requireText (value field : String) (minimum maximum : ℕ) : Except Failure String :=
  if IsRequiredText maximum value ∧ minimum ≤ value.length then .ok value
  else .error (.valueError (field ++ " is invalid"))

/-- `_positive_integer` -/
def positiveInteger (value : ℤ) (field : String) : Except Failure ℤ :=
  if 1 ≤ value then .ok value else .error (.valueError (field ++ " is invalid"))

/-- `_positive_integer` where zero is allowed. -/
def nonnegativeInteger (value : ℤ) (field : String) : Except Failure ℤ :=
  if 0 ≤ value then .ok value else .error (.valueError (field ++ " is invalid"))

/-! ## Schema versions -/

def COMMAND_SCHEMA_VERSION : String := "checkout_command.v1"

def OPEN_GUARD_SCHEMA_VERSION : String := "checkout_open_guard.v1"

def PUBLIC_LOOKUP_SCHEMA_VERSION : String := "checkout_public_lookup.v1"

def PROVIDER_KEY_VERSION : ℤ := 1

def EVENT_INBOX_SCHEMA_VERSION : String := "billing_event_inbox.v1"

def SEMANTIC_DEDUPE_SCHEMA_VERSION : String := "billing_semantic_dedupe.v1"

def OBJECT_FACT_SCHEMA_VERSION : String := "billing_object_fact.v1"

def ACTIVATION_RECEIPT_SCHEMA_VERSION : String := "billing_activation_receipt.v1"

/-! ## Time -/

/-- A `datetime`: its reading in microseconds, and its offset when it has one.
Its `isoformat` reads back as the same reading and offset. -/
structure Datetime where
  reading : ℤ
  utcoffset : Option ℤ
  deriving DecidableEq

/-- The instant of a reading; aware readings are equal when their instants are. -/
def Datetime.instant (d : Datetime) : Instant := d.reading - d.utcoffset.getD 0

/-- A timestamp text, with what `datetime.fromisoformat` reads in it. -/
structure TimestampText where
  text : String
  parsed : Option Datetime
  deriving DecidableEq

/-- `_timestamp` -/
def requireTimestamp (value : TimestampText) (field : String) : Except Failure TimestampText := do
  let _ ← requireText value.text field 1 64
  if value.parsed.any fun time => time.utcoffset.isSome then return value
  else .error (.valueError (field ++ " is invalid"))

/-! ## Rows -/

structure CommandRow where
  entityType : String
  schemaVersion : String
  commandId : String
  parentId : String
  accountFenceGeneration : ℤ
  intentFingerprint : Sha256
  idempotencyKeyDigest : Sha256
  checkoutRef : String
  planId : BillingPlanId
  beneficiaryIds : List String
  priceId : String
  priceCatalogVersion : ℤ
  planVersion : ℤ
  environment : String
  commandState : CheckoutCommandState
  commandVersion : ℤ
  providerKeyVersion : ℤ
  providerKeyDigest : Sha256
  providerEffectStatus : ProviderEffectStatus
  expirationEffectStatus : Option ExpirationEffectStatus
  leaseGeneration : ℤ
  leaseOwner : Option String
  leaseExpiresAt : Option ℤ
  providerSessionId : Option String
  providerSessionUrl : Option String
  providerSessionIdDigest : Option Sha256
  providerCustomerIdDigest : Option Sha256
  providerSubscriptionIdDigest : Option Sha256
  expectedInitialInvoiceIdDigest : Option Sha256
  supersededByCommandId : Option String
  supersededAt : Option String
  activationVersion : Option ℤ
  paidInvoiceFactId : Option String
  activeSubscriptionFactId : Option String
  allowanceVersion : Option ℤ
  createdAt : String
  updatedAt : String
  deriving DecidableEq

/-- The one open checkout of a parent. -/
structure OpenGuardRow where
  entityType : String
  schemaVersion : String
  parentId : String
  accountFenceGeneration : ℤ
  commandId : String
  commandVersion : ℤ
  intentFingerprint : Sha256
  createdAt : String
  deriving DecidableEq

structure PublicLookupRow where
  entityType : String
  schemaVersion : String
  checkoutRef : String
  parentId : String
  accountFenceGeneration : ℤ
  commandId : String
  intentFingerprint : Sha256
  createdAt : String
  deriving DecidableEq

inductive BillingEventDisposition where
  | registered
  | eventDuplicate
  | semanticDuplicate
  | retryable
  deriving DecidableEq, Repr

structure EventInboxRow where
  entityType : String
  schemaVersion : String
  providerEventIdDigest : Sha256
  semanticIdentity : Sha256
  providerObjectIdDigest : Sha256
  eventType : String
  objectVersion : ℤ
  factObservedAt : String
  processingResult : BillingEventDisposition
  deriving DecidableEq

structure SemanticRow where
  entityType : String
  schemaVersion : String
  semanticIdentity : Sha256
  providerObjectIdDigest : Sha256
  eventType : String
  objectVersion : ℤ
  factObservedAt : String
  processingResult : BillingEventDisposition
  deriving DecidableEq

structure ObjectFactRow where
  entityType : String
  schemaVersion : String
  factId : Text
  checkoutCommandId : Text
  kind : BillingFactKind
  providerEventIdDigest : Sha256
  providerObjectIdDigest : Sha256
  objectVersion : Version
  factObservedAt : Datetime
  processingResult : String
  deriving DecidableEq

inductive ActivationDisposition where
  | committed
  | alreadyCommitted
  | conflict
  | retryable
  deriving DecidableEq, Repr

structure ActivationReceiptRow where
  entityType : String
  schemaVersion : String
  commandId : String
  parentId : String
  activationVersion : ℤ
  planId : BillingPlanId
  planVersion : ℤ
  allowanceVersion : ℤ
  paidInvoiceFactId : String
  activeSubscriptionFactId : String
  factObservedAt : String
  processingResult : ActivationDisposition
  deriving DecidableEq

/-- A billing projection or an allowance plan. -/
structure ProjectedRow where
  entityType : String
  parentId : String
  planId : BillingPlanId
  planVersion : ℤ
  allowanceVersion : ℤ
  activationVersion : ℤ
  deriving DecidableEq

inductive TransitionKind where
  | periodEnd
  | renewalGrace
  deriving DecidableEq, Repr

inductive TransitionStatus where
  | scheduled
  | graceStarted
  | cleared
  | applied
  deriving DecidableEq, Repr

/-- A plan change at the end of a period, or the grace of a failed renewal. -/
structure TransitionRow where
  entityType : String
  schemaVersion : String
  transitionKind : TransitionKind
  transitionIdentity : Sha256
  parentId : String
  subscriptionIdDigest : Sha256
  beneficiaryIds : List String
  currentPlan : BillingPlanId
  targetPlan : BillingPlanId
  planVersion : ℤ
  failureIdentity : Option String
  effectiveAt : Datetime
  graceStartedAt : Option Datetime
  graceExpiresAt : Option Datetime
  transitionVersion : ℤ
  status : TransitionStatus
  clearedAt : Option Datetime
  appliedAt : Option Datetime
  attachmentStorageLimit : Option ℤ
  deriving DecidableEq

/-- A grant that a transition has replaced. -/
structure GrantHistoryRow where
  entityType : String
  schemaVersion : String
  parentId : String
  beneficiaryId : String
  grantVersion : ℤ
  planId : BillingPlanId
  planVersion : ℤ
  allowanceVersion : ℤ
  activationVersion : ℤ
  subscriptionIdDigest : Sha256
  transitionIdentity : Sha256
  retainedAt : Datetime
  deriving DecidableEq

inductive Key where
  | account (key : Relationships.Key)
  | command (id : String)
  | openGuard (parent : String)
  | publicLookup (ref : String)
  | eventInbox (event : Sha256)
  | semantic (identity : Sha256)
  | objectFact (command : String) (kind : BillingFactKind) (object : Sha256)
  | activationReceipt (command : String) (version : ℤ)
  | projection (parent : String)
  | allowancePlan (parent : String)
  | transition (parent : String) (kind : TransitionKind) (subscription : Sha256)
  | grantHistory (parent beneficiary : String) (version : ℤ)
  deriving DecidableEq

abbrev Row : Key → Type
  | .account key => Relationships.Row key
  | .command _ => CommandRow
  | .openGuard _ => OpenGuardRow
  | .publicLookup _ => PublicLookupRow
  | .eventInbox _ => EventInboxRow
  | .semantic _ => SemanticRow
  | .objectFact _ _ _ => ObjectFactRow
  | .activationReceipt _ _ => ActivationReceiptRow
  | .projection _ => ProjectedRow
  | .allowancePlan _ => ProjectedRow
  | .transition _ _ _ => TransitionRow
  | .grantHistory _ _ _ => GrantHistoryRow

/-- The relationship rows of the table. -/
def accounts : Part Relationships.Key Relationships.Row Key Row where
  key := .account
  row := fun _ row => row
  restrict
    | .account key, row => some ⟨key, row⟩
    | .command _, _ => none
    | .openGuard _, _ => none
    | .publicLookup _, _ => none
    | .eventInbox _, _ => none
    | .semantic _, _ => none
    | .objectFact _ _ _, _ => none
    | .activationReceipt _ _, _ => none
    | .projection _, _ => none
    | .allowancePlan _, _ => none
    | .transition _ _ _, _ => none
    | .grantHistory _ _ _, _ => none
  covers
    | .account key => some key
    | _ => none

/-- A call of one of the repositories, which may raise. -/
abbrev RepoCall (α : Type) := Program Key Row (Except Failure α)

/-- The condition check on an account's fence. -/
def activeFence (parent : String) (generation : ℤ) : Write Key Row :=
  .check (.account (.accountFence parent)) (activeFenceCondition (some generation))

end Stoa.Billing
