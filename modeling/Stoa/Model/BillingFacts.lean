import Stoa.Model.Checkout

/-! # Provider facts and activations

Events are registered once, facts only advance, and one transaction publishes
everything that a paid activation changes. -/

namespace Stoa.Billing

open RowStore

variable (env : Env)

/-! ## Events -/

structure RegisterEventRequest where
  providerEventId : String
  eventType : String
  providerObjectId : String
  objectVersion : ℤ
  factObservedAt : TimestampText

structure BillingEventResult where
  disposition : BillingEventDisposition
  receipt : Option EventInboxRow

/-- An event with the identities it is registered under. -/
structure EventRegistration where
  eventType : String
  version : ℤ
  observed : String
  eventDigest : Sha256
  objectDigest : Sha256
  semanticIdentity : Sha256

def RegisterEventRequest.checked (r : RegisterEventRequest) : Except Failure EventRegistration := do
  let eventType ← requireText r.eventType "event_type" 1 100
  let version ← positiveInteger r.objectVersion "object_version"
  let observed ← requireTimestamp r.factObservedAt "fact_observed_at"
  let event ← requireText r.providerEventId "provider_event_id" 1 200
  let object ← requireText r.providerObjectId "provider_object_id" 1 200
  return {
    eventType := eventType
    version := version
    observed := observed.text
    eventDigest := env.domainDigest "stoa.billing.provider-event.v1" [event]
    objectDigest := env.domainDigest "stoa.billing.provider-object.v1" [object]
    semanticIdentity := env.domainDigest "stoa.billing.semantic-event.v1" [eventType, object] }

namespace EventRegistration

def receipt (v : EventRegistration) (result : BillingEventDisposition) : EventInboxRow where
  entityType := "billing_event_inbox"
  schemaVersion := EVENT_INBOX_SCHEMA_VERSION
  providerEventIdDigest := v.eventDigest
  semanticIdentity := v.semanticIdentity
  providerObjectIdDigest := v.objectDigest
  eventType := v.eventType
  objectVersion := v.version
  factObservedAt := v.observed
  processingResult := result

def semantic (v : EventRegistration) : SemanticRow where
  entityType := "billing_semantic_dedupe"
  schemaVersion := SEMANTIC_DEDUPE_SCHEMA_VERSION
  semanticIdentity := v.semanticIdentity
  providerObjectIdDigest := v.objectDigest
  eventType := v.eventType
  objectVersion := v.version
  factObservedAt := v.observed
  processingResult := .registered

/-- `_event_receipt_matches` -/
def matchesReceipt (v : EventRegistration) (item : EventInboxRow) : Prop :=
  item.schemaVersion = EVENT_INBOX_SCHEMA_VERSION ∧ item.providerEventIdDigest = v.eventDigest ∧
    item.semanticIdentity = v.semanticIdentity

instance (v : EventRegistration) (item : EventInboxRow) : Decidable (v.matchesReceipt item) :=
  inferInstanceAs (Decidable (_ ∧ _))

def matchesSemantic (v : EventRegistration) (item : SemanticRow) : Prop :=
  item.schemaVersion = SEMANTIC_DEDUPE_SCHEMA_VERSION ∧
    item.semanticIdentity = v.semanticIdentity ∧ item.eventType = v.eventType ∧
    item.providerObjectIdDigest = v.objectDigest

instance (v : EventRegistration) (item : SemanticRow) : Decidable (v.matchesSemantic item) :=
  inferInstanceAs (Decidable (_ ∧ _))

def answer (disposition : BillingEventDisposition) (receipt : Option EventInboxRow) :
    RepoCall BillingEventResult :=
  .ret (.ok ⟨disposition, receipt⟩)

def replayed (v : EventRegistration) (item : EventInboxRow) : RepoCall BillingEventResult :=
  answer (if v.matchesReceipt item then .eventDuplicate else .retryable) (some item)

/-- The same side effect under another event is written down as a duplicate. -/
def audit (v : EventRegistration) : RepoCall BillingEventResult :=
  .transact [.putNew (.eventInbox v.eventDigest) (v.receipt .semanticDuplicate)] fun
    | true => answer .semanticDuplicate (some (v.receipt .semanticDuplicate))
    | false =>
      .read (.eventInbox v.eventDigest) fun
        | none => answer .retryable none
        | some none => answer .retryable none
        | some (some replay) =>
          if v.matchesReceipt replay then answer .semanticDuplicate (some replay)
          else answer .retryable none

def refresh (v : EventRegistration) : RepoCall BillingEventResult :=
  .read (.eventInbox v.eventDigest) fun
    | none => answer .retryable none
    | some (some replay) => v.replayed replay
    | some none =>
      .read (.semantic v.semanticIdentity) fun
        | none => answer .retryable none
        | some none => answer .retryable none
        | some (some existing) =>
          if v.matchesSemantic existing then v.audit else answer .retryable none

def run (v : EventRegistration) : RepoCall BillingEventResult :=
  .read (.eventInbox v.eventDigest) fun
    | none => answer .retryable none
    | some (some existing) => v.replayed existing
    | some none =>
      .transact [.putNew (.eventInbox v.eventDigest) (v.receipt .registered),
          .putNew (.semantic v.semanticIdentity) v.semantic] fun
        | true => answer .registered (some (v.receipt .registered))
        | false => v.refresh

end EventRegistration

def registerProviderEvent (r : RegisterEventRequest) : RepoCall BillingEventResult :=
  match r.checked env with
  | .error failure => .ret (.error failure)
  | .ok v => v.run

/-! ## Facts -/

structure BillingFact where
  factId : Text
  checkoutCommandId : Text
  kind : BillingFactKind
  providerEventIdDigest : Sha256
  providerObjectIdDigest : Sha256
  factVersion : Version
  observedAt : Datetime
  deriving DecidableEq

namespace BillingFact

abbrev key (fact : BillingFact) : Key :=
  .objectFact fact.checkoutCommandId.val fact.kind fact.providerObjectIdDigest

/-- Equality of facts; times are equal as instants. -/
def Same (fact other : BillingFact) : Prop :=
  fact.factId = other.factId ∧ fact.checkoutCommandId = other.checkoutCommandId ∧
    fact.kind = other.kind ∧ fact.providerEventIdDigest = other.providerEventIdDigest ∧
    fact.providerObjectIdDigest = other.providerObjectIdDigest ∧
    fact.factVersion = other.factVersion ∧ fact.observedAt.instant = other.observedAt.instant

instance (fact other : BillingFact) : Decidable (fact.Same other) :=
  inferInstanceAs (Decidable (_ ∧ _))

/-- The row of a fact. -/
def item (fact : BillingFact) : ObjectFactRow where
  entityType := "billing_object_fact"
  schemaVersion := OBJECT_FACT_SCHEMA_VERSION
  factId := fact.factId
  checkoutCommandId := fact.checkoutCommandId
  kind := fact.kind
  providerEventIdDigest := fact.providerEventIdDigest
  providerObjectIdDigest := fact.providerObjectIdDigest
  objectVersion := fact.factVersion
  factObservedAt := fact.observedAt
  processingResult := "current"

end BillingFact

/-- `_fact_item`: only a timezone-aware fact is written. -/
def factItem (fact : BillingFact) : Except Failure ObjectFactRow :=
  if fact.observedAt.utcoffset.isNone then .error (.valueError "observed_at is invalid")
  else .ok fact.item

def billingFactFromItem (item : ObjectFactRow) : Except Failure BillingFact :=
  if item.entityType ≠ "billing_object_fact" ∨ item.schemaVersion ≠ OBJECT_FACT_SCHEMA_VERSION then
    .error (.valueError "billing fact row is malformed")
  else if item.factObservedAt.utcoffset.isNone then
    .error (.valueError "fact_observed_at is invalid")
  else .ok {
    factId := item.factId
    checkoutCommandId := item.checkoutCommandId
    kind := item.kind
    providerEventIdDigest := item.providerEventIdDigest
    providerObjectIdDigest := item.providerObjectIdDigest
    factVersion := item.objectVersion
    observedAt := item.factObservedAt }

inductive FactRecordDisposition where
  | created
  | advanced
  | duplicate
  | stale
  | retryable
  deriving DecidableEq, Repr

structure FactRecordResult where
  disposition : FactRecordDisposition
  fact : Option BillingFact

/-- `_classify_fact_replay` -/
def classifyFactReplay (item : Option ObjectFactRow) (fact : BillingFact) : FactRecordResult :=
  match item.map billingFactFromItem with
  | none => ⟨.retryable, none⟩
  | some (.error _) => ⟨.retryable, none⟩
  | some (.ok current) =>
    if fact.factVersion.val < current.factVersion.val then ⟨.stale, some current⟩
    else if current.factVersion = fact.factVersion then
      ⟨if current.Same fact then .duplicate else .stale, some current⟩
    else ⟨.retryable, some current⟩

def advanceCondition (expected next : ℤ) (row : ObjectFactRow) : Bool :=
  row.entityType = "billing_object_fact" ∧ row.schemaVersion = OBJECT_FACT_SCHEMA_VERSION ∧
    row.objectVersion.val = expected ∧ row.objectVersion.val < next

def createFact (fact : BillingFact) (item : ObjectFactRow) : RepoCall FactRecordResult :=
  .transact [.putNew fact.key item] fun
    | true => .ret (.ok ⟨.created, some fact⟩)
    | false =>
      .read fact.key fun
        | none => .ret (.ok ⟨.retryable, none⟩)
        | some replay => .ret (.ok (classifyFactReplay replay fact))

def advanceFact (fact : BillingFact) (item : ObjectFactRow) (current : BillingFact) :
    RepoCall FactRecordResult :=
  .transact [.put fact.key item
      (Option.any (advanceCondition current.factVersion.val fact.factVersion.val))] fun
    | true => .ret (.ok ⟨.advanced, some fact⟩)
    | false =>
      .read fact.key fun
        | none => .ret (.ok ⟨.retryable, none⟩)
        | some replay =>
          let classified := classifyFactReplay replay fact
          -- An ambiguous failure: the fact that is found may be one's own.
          if classified.disposition = .duplicate then .ret (.ok ⟨.advanced, some fact⟩)
          else .ret (.ok classified)

def recordProviderFact (fact : BillingFact) : RepoCall FactRecordResult :=
  match factItem fact with
  | .error failure => .ret (.error failure)
  | .ok item =>
    .read fact.key fun
      | none => .ret (.ok ⟨.retryable, none⟩)
      | some none => createFact fact item
      | some (some currentItem) =>
        let classified := classifyFactReplay (some currentItem) fact
        if classified.disposition ≠ .retryable then .ret (.ok classified)
        else
          match billingFactFromItem currentItem with
          | .error _ => .ret (.ok ⟨.retryable, none⟩)
          | .ok current => advanceFact fact item current

/-- The partition of a command's facts and receipts. -/
def inPartition (command : String) : Key → Bool
  | .objectFact id _ _ => id = command
  | .activationReceipt id _ => id = command
  | _ => false

/-- The fact rows among the rows of a partition. -/
def factRows (rows : List ((k : Key) × Row k)) : List ObjectFactRow :=
  rows.filterMap fun
    | ⟨.objectFact _ _ _, row⟩ => if row.schemaVersion = OBJECT_FACT_SCHEMA_VERSION then some row
        else none
    | _ => none

/-- Facts are ordered by kind and object. -/
def factOrder (fact other : BillingFact) : Prop :=
  fact.kind.value < other.kind.value ∨ (fact.kind.value = other.kind.value ∧
    fact.providerObjectIdDigest.val ≤ other.providerObjectIdDigest.val)

instance (fact other : BillingFact) : Decidable (factOrder fact other) :=
  inferInstanceAs (Decidable (_ ∨ _))

def loadActivationFacts (commandId : String) : RepoCall (List BillingFact) :=
  match requireText commandId "command_id" 1 200 with
  | .error failure => .ret (.error failure)
  | .ok commandId =>
    .query (inPartition commandId) fun
      | none => .ret (.error .tableError)
      | some rows =>
        match (factRows rows).mapM billingFactFromItem with
        | .error failure => .ret (.error failure)
        | .ok facts => .ret (.ok (facts.insertionSort factOrder))

/-! ## Activations -/

structure PaidActivationRequest where
  commandId : String
  parentId : String
  expectedCommandVersion : ℤ
  providerCustomerIdDigest : Sha256
  priceId : String
  environment : String
  planId : BillingPlanId
  planVersion : ℤ
  allowanceVersion : ℤ
  activationVersion : ℤ
  paidInvoiceFactId : String
  activeSubscriptionFactId : String
  activatedAt : TimestampText
  providerLivemode : Bool
  providerSubscriptionIdDigest : Option Sha256

/-- `_activation_request` -/
def PaidActivationRequest.checked (r : PaidActivationRequest) : Except Failure Unit := do
  let _ ← requireText r.commandId "command_id" 1 200
  let _ ← requireText r.parentId "parent_id" 1 200
  let _ ← positiveInteger r.expectedCommandVersion "expected_command_version"
  let _ ← requireText r.priceId "price_id" 1 200
  let environment ← requireText r.environment "environment" 1 32
  if r.providerLivemode ∨ environment = "production" then
    .error (.valueError "paid activation requires a sandbox test-mode provider object")
  else if r.planId = .freeTrial then .error (.valueError "plan_id is not a paid plan")
  else
    let _ ← positiveInteger r.planVersion "plan_version"
    let _ ← positiveInteger r.allowanceVersion "allowance_version"
    let _ ← positiveInteger r.activationVersion "activation_version"
    let _ ← requireText r.paidInvoiceFactId "paid_invoice_fact_id" 1 200
    let _ ← requireText r.activeSubscriptionFactId "active_subscription_fact_id" 1 200
    let _ ← requireTimestamp r.activatedAt "activated_at"
    return ()

/-- A projection or an allowance plan, with the parent its key names. -/
structure ProjectedItem where
  owner : String
  row : ProjectedRow

/-- A grant, with the pair its key names. -/
structure GrantItem where
  owner : String
  student : String
  row : Relationships.GrantRow

structure ConditionCheck where
  key : Key
  condition : Option (Row key) → Bool

/-- What an activation publishes besides the command and the receipt. -/
structure ActivationItems where
  billingProjection : ProjectedItem
  grantItems : List GrantItem
  allowanceItem : ProjectedItem
  grantOperations : List ConditionCheck

namespace PaidActivationRequest

def matchesProjected (r : PaidActivationRequest) (entityType : String) (row : ProjectedRow) :
    Prop :=
  row.entityType = entityType ∧ row.parentId = r.parentId ∧ row.planId = r.planId ∧
    row.planVersion = r.planVersion ∧ row.allowanceVersion = r.allowanceVersion ∧
    row.activationVersion = r.activationVersion

instance (r : PaidActivationRequest) (entityType : String) (row : ProjectedRow) :
    Decidable (r.matchesProjected entityType row) :=
  inferInstanceAs (Decidable (_ ∧ _))

def matchesGrant (r : PaidActivationRequest) (row : Relationships.GrantRow) : Prop :=
  row.entityType = "beneficiary_grant" ∧ row.parentId = r.parentId ∧ row.planId = r.planId ∧
    row.planVersion = r.planVersion ∧ row.allowanceVersion = r.allowanceVersion ∧
    row.activationVersion = r.activationVersion

instance (r : PaidActivationRequest) (row : Relationships.GrantRow) :
    Decidable (r.matchesGrant row) :=
  inferInstanceAs (Decidable (_ ∧ _))

/-- The checks of `commit_paid_activation` on what it is given to publish. -/
def checkItems (r : PaidActivationRequest) (items : ActivationItems) : Except Failure Unit := do
  if ¬ r.matchesProjected "billing_projection" items.billingProjection.row then
    .error (.valueError "billing_projection item does not match the activation")
  else if items.grantItems = [] ∨ 3 < items.grantItems.length then
    .error (.valueError "grant_items must contain one to three explicit grants")
  else if ∃ grant ∈ items.grantItems, ¬ r.matchesGrant grant.row then
    .error (.valueError "beneficiary_grant item does not match the activation")
  else
    let _ ← items.grantItems.mapM fun grant =>
      requireText grant.row.beneficiaryId "beneficiary_id" 1 200
    if ¬ (items.grantItems.map fun grant => grant.row.beneficiaryId).Nodup then
      .error (.valueError "beneficiary grant identities must be unique")
    else if ¬ r.matchesProjected "allowance_plan" items.allowanceItem.row then
      .error (.valueError "allowance_plan item does not match the activation")
    else return ()

def receipt (r : PaidActivationRequest) : ActivationReceiptRow where
  entityType := "billing_activation_receipt"
  schemaVersion := ACTIVATION_RECEIPT_SCHEMA_VERSION
  commandId := r.commandId
  parentId := r.parentId
  activationVersion := r.activationVersion
  planId := r.planId
  planVersion := r.planVersion
  allowanceVersion := r.allowanceVersion
  paidInvoiceFactId := r.paidInvoiceFactId
  activeSubscriptionFactId := r.activeSubscriptionFactId
  factObservedAt := r.activatedAt.text
  processingResult := .committed

/-- `_receipt_matches` -/
def matchesReceipt (r : PaidActivationRequest) (item : ActivationReceiptRow) : Prop :=
  item.schemaVersion = ACTIVATION_RECEIPT_SCHEMA_VERSION ∧ item.commandId = r.commandId ∧
    item.parentId = r.parentId ∧ item.activationVersion = r.activationVersion ∧
    item.paidInvoiceFactId = r.paidInvoiceFactId ∧
    item.activeSubscriptionFactId = r.activeSubscriptionFactId

instance (r : PaidActivationRequest) (item : ActivationReceiptRow) :
    Decidable (r.matchesReceipt item) :=
  inferInstanceAs (Decidable (_ ∧ _))

/-- `_command_matches` -/
def matchesCommand (r : PaidActivationRequest) (item : CommandRow) : Prop :=
  item.commandId = r.commandId ∧ item.parentId = r.parentId ∧
    item.commandVersion = r.expectedCommandVersion ∧
    item.providerCustomerIdDigest = some r.providerCustomerIdDigest ∧
    item.priceId = r.priceId ∧ item.environment = r.environment ∧ item.planId = r.planId ∧
    item.planVersion = r.planVersion

instance (r : PaidActivationRequest) (item : CommandRow) : Decidable (r.matchesCommand item) :=
  inferInstanceAs (Decidable (_ ∧ _))

def activate (r : PaidActivationRequest) (row : CommandRow) : CommandRow :=
  { row with
    commandState := .activationRecorded
    commandVersion := r.expectedCommandVersion + 1
    activationVersion := some r.activationVersion
    paidInvoiceFactId := some r.paidInvoiceFactId
    activeSubscriptionFactId := some r.activeSubscriptionFactId
    allowanceVersion := some r.allowanceVersion
    updatedAt := r.activatedAt.text }

def condition (r : PaidActivationRequest) (row : CommandRow) : Bool :=
  row.entityType = "checkout_command" ∧ r.matchesCommand row ∧
    row.commandState ≠ .activationRecorded

/-- A row is published where there is none, or one of an older activation. -/
def IsNewer (r : PaidActivationRequest) (version : ℤ) : Bool := version < r.activationVersion

def operations (r : PaidActivationRequest) (items : ActivationItems) : List (Write Key Row) :=
  .modify (.command r.commandId) r.activate r.condition ::
    (items.grantOperations.map fun check => Write.check check.key check.condition) ++
    (.put (.projection items.billingProjection.owner) items.billingProjection.row
        (Option.all fun row => r.IsNewer row.activationVersion) ::
      (items.grantItems.map fun grant =>
        Write.put (.account (.grant grant.owner grant.student)) grant.row
          (Option.all fun row => r.IsNewer row.activationVersion)) ++
      [.put (.allowancePlan items.allowanceItem.owner) items.allowanceItem.row
        (Option.all fun row => r.IsNewer row.activationVersion),
      .putNew (.activationReceipt r.commandId r.activationVersion) r.receipt])

end PaidActivationRequest

structure ActivationResult where
  disposition : ActivationDisposition
  receipt : Option ActivationReceiptRow

namespace PaidActivationRequest

def answer (disposition : ActivationDisposition) (receipt : Option ActivationReceiptRow) :
    RepoCall ActivationResult :=
  .ret (.ok ⟨disposition, receipt⟩)

/-- How a failed activation is classified from a second read. -/
def refresh (r : PaidActivationRequest) : RepoCall ActivationResult :=
  .read (.activationReceipt r.commandId r.activationVersion) fun
    | none => answer .retryable none
    | some replay =>
      .read (.command r.commandId) fun
        | none => answer .retryable none
        | some command =>
          if replay.any fun replay => r.matchesReceipt replay then
            answer .alreadyCommitted replay
          else if command.any fun command => ¬ r.matchesCommand command then
            answer .conflict none
          else answer .retryable none

/-- The transaction, once the receipt is known not to exist. -/
def submit (r : PaidActivationRequest) (items : ActivationItems) : RepoCall ActivationResult :=
  if ((r.operations items).map Write.key).Nodup then
    .transact (r.operations items) fun
      | true => answer .committed (some r.receipt)
      | false => r.refresh
  else .ret (.error (.valueError "activation transaction item targets must be unique"))

def findFact (kind : BillingFactKind) (factId : String) (facts : List BillingFact) :
    Option BillingFact :=
  facts.find? fun fact => fact.kind = kind ∧ fact.factId.val = factId

/-- What happens once the facts are loaded. -/
def commitWith (r : PaidActivationRequest) (items : ActivationItems) (facts : List BillingFact) :
    RepoCall ActivationResult :=
  if (findFact .invoicePaid r.paidInvoiceFactId facts).isNone ∨
      (findFact .subscriptionActive r.activeSubscriptionFactId facts).isNone then
    answer .conflict none
  else
    .read (.activationReceipt r.commandId r.activationVersion) fun
      | none => answer .retryable none
      | some (some prior) =>
        answer (if r.matchesReceipt prior then .alreadyCommitted else .conflict) (some prior)
      | some none => r.submit items

end PaidActivationRequest

/-- `commit_paid_activation` of the billing facts. -/
def commitPaidActivation (r : PaidActivationRequest) (items : ActivationItems) :
    RepoCall ActivationResult :=
  match r.checked, r.checkItems items with
  | .error failure, _ => .ret (.error failure)
  | .ok _, .error failure => .ret (.error failure)
  | .ok _, .ok _ =>
    (loadActivationFacts r.commandId).bind fun
      | .error failure => .ret (.error failure)
      | .ok facts => r.commitWith items facts

end Stoa.Billing
