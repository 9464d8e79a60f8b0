import Stoa.Model.Subscription
import Stoa.Store.Interleaving

/-! # Subscription requests

A parent asks for another plan, and an admin moves the request on. The open
guard of the parent is written with the request and removed when it ends. -/

namespace Stoa.Subscription

open RowStore

def REQUEST_ENTITY : String := "subscription_request"

def OPEN_GUARD_ENTITY : String := "subscription_request_open_guard"

namespace RequestStatus

def value : RequestStatus → String
  | requested => "requested"
  | inReview => "in_review"
  | approved => "approved"
  | applied => "applied"
  | rejected => "rejected"
  | cancelled => "cancelled"

/-- `REQUEST_STATUSES` -/
def all : List RequestStatus := [requested, inReview, approved, applied, rejected, cancelled]

/-- `OPEN_STATUSES` -/
def isOpen : RequestStatus → Bool
  | requested | inReview | approved => true
  | applied | rejected | cancelled => false

/-- `TERMINAL_STATUSES` -/
def isTerminal : RequestStatus → Bool
  | applied | rejected | cancelled => true
  | requested | inReview | approved => false

end RequestStatus

def ALLOWED_TRANSITIONS : RequestStatus → List RequestStatus
  | .requested => [.inReview, .approved, .rejected, .cancelled]
  | .inReview => [.approved, .rejected, .cancelled]
  | .approved => [.applied, .rejected, .cancelled]
  | .applied => []
  | .rejected => []
  | .cancelled => []

def requireTransition (current target : RequestStatus) : Except Raised Unit :=
  if current.isTerminal then .error (.http 409 "Subscription request is already terminal")
  else if target ∈ ALLOWED_TRANSITIONS current then .ok ()
  else .error (.http 400 ("Invalid transition from " ++ current.value ++ " to " ++ target.value))

/-! ## Asking -/

inductive RequestType where
  | upgrade
  | downgrade
  | cancel
  deriving DecidableEq, Repr

namespace RequestType

def value : RequestType → String
  | upgrade => "upgrade"
  | downgrade => "downgrade"
  | cancel => "cancel"

/-- `REQUEST_TYPES` -/
def all : List RequestType := [upgrade, downgrade, cancel]

end RequestType

/-- `_require_choice`, for a choice that is stored under its value. -/
def requireChoice {α : Type} (choices : List α) (value : α → String) (given field : String) :
    Except Raised α :=
  match choices.find? (value · = given) with
  | some choice => .ok choice
  | none => .error (.http 400 ("Invalid " ++ field ++ ": " ++ given))

def targetTier (requestType : RequestType) (requestedTier : Option String) :
    Except Raised SubscriptionTier :=
  match requestType, requestedTier with
  | .cancel, none => .ok .freeTrial
  | _, some tier => normalizeTier (some tier)
  | _, none => .error (.http 400 "requested_tier is required")

/-- The arguments of `create_parent_request`, with what the call draws: the time
and the two identities. -/
structure CreateRequest where
  parentId : String
  requestType : String
  requestedTier : Option String
  parentNote : Option String
  source : String
  now : String
  requestHex : String
  eventHex : String
  /-- A transaction that raises says that it was cancelled. -/
  cancelled : Bool

namespace CreateRequest

def requestId (r : CreateRequest) : String := "subreq-" ++ r.requestHex

/-- What the profile allows to ask for: the type and both tiers. -/
def checked (r : CreateRequest) (profile : ProfileRow) :
    Except Raised (RequestType × SubscriptionTier × SubscriptionTier) := do
  let requestType ← requireChoice RequestType.all RequestType.value r.requestType "request_type"
  let current ← normalizeTier profile.subscriptionTier
  let target ← targetTier requestType r.requestedTier
  if requestType = .upgrade ∧ target.rank ≤ current.rank then
    .error (.http 400 "Upgrade request must target a higher tier")
  else if requestType = .downgrade ∧ current.rank ≤ target.rank then
    .error (.http 400 "Downgrade request must target a lower tier")
  else if requestType = .cancel ∧ target ≠ .freeTrial then
    .error (.http 400 "Cancellation requests target the free tier")
  else return (requestType, current, target)

def event (r : CreateRequest) (requestType : RequestType) (target : SubscriptionTier) :
    EventRow where
  entityType := "subscription_request_event"
  eventId := "subevt-" ++ r.eventHex
  requestId := r.requestId
  eventType := .requested
  eventAt := r.now
  actorId := r.parentId
  actorRole := "parent"
  note := cleanNote (cleanNote r.parentNote)
  changes := [("requested_tier", some target.value), ("request_type", some requestType.value)]

def item (r : CreateRequest) (requestType : RequestType) (current target : SubscriptionTier) :
    RequestRow where
  entityType := REQUEST_ENTITY
  requestId := r.requestId
  parentId := r.parentId
  currentTier := current.value
  requestedTier := target.value
  requestType := requestType.value
  status := .requested
  source := r.source
  parentNote := cleanNote r.parentNote
  adminNote := none
  createdAt := r.now
  updatedAt := r.now
  effectiveAt := none
  appliedAt := none
  appliedBy := none
  history := [r.event requestType target]

def guard (r : CreateRequest) : OpenGuardRow where
  entityType := OPEN_GUARD_ENTITY
  parentId := r.parentId
  requestId := r.requestId
  status := .requested
  createdAt := r.now
  updatedAt := r.now

end CreateRequest

/-- The put of a new event. -/
def putEvent (event : EventRow) : Write Key Row :=
  .putNew (.requestEvent event.requestId event.eventAt event.eventId) event

def CreateRequest.operations (r : CreateRequest) (requestType : RequestType)
    (current target : SubscriptionTier) : List (Write Key Row) := [
  .putNew (.request r.requestId) (r.item requestType current target),
  putEvent (r.event requestType target),
  .putNew (.openGuard r.parentId) r.guard]

def createParentRequest (r : CreateRequest) : Handler RequestRow := do
  let profile ← requireParent r.parentId
  let (requestType, current, target) ← RowStore.Handler.of (r.checked profile)
  transactWrite (r.operations requestType current target) r.cancelled
    "Parent already has an open subscription request"
  return r.item requestType current target

/-! ## Moving on -/

def getRequestItem (requestId : String) : Handler RequestRow := do
  match ← get (.request requestId) with
  | some item => return item
  | none => throw (.http 404 "Subscription request not found")

def asEvent : (k : Key) × Row k → Option EventRow
  | ⟨.requestEvent _ _ _, event⟩ => some event
  | _ => none

def isEventOf (requestId : String) : Key → Bool
  | .requestEvent request _ _ => request = requestId
  | _ => false

def listEvents (requestId : String) : Handler (List EventRow) := do
  let rows ← RowStore.Handler.list .clientError (isEventOf requestId)
  return (rows.filterMap asEvent).insertionSort (·.eventAt ≤ ·.eventAt)

/-- The stored events, or else those of the item itself. -/
def getRequest (requestId : String) : Handler RequestRow := do
  let item ← getRequestItem requestId
  let events ← listEvents requestId
  return { item with history := if events = [] then item.history else events }

/-- What a change of status sets; what it does not set stays. -/
structure Updates where
  status : RequestStatus
  updatedAt : String
  adminNote : Option (Option String)
  effectiveAt : Option String
  appliedAt : Option String
  appliedBy : Option String

def Updates.item (u : Updates) (item : RequestRow) : RequestRow :=
  { item with
    status := u.status
    updatedAt := u.updatedAt
    adminNote := u.adminNote.getD item.adminNote
    effectiveAt := u.effectiveAt.or item.effectiveAt
    appliedAt := u.appliedAt.or item.appliedAt
    appliedBy := u.appliedBy.or item.appliedBy }

/-- The update of the item, from the status that was read. -/
def Updates.operation (u : Updates) (requestId : String) (expected : RequestStatus) :
    Write Key Row :=
  .modify (.request requestId) u.item fun stored => stored.status = expected

/-- What is answered after a change. -/
def changed (item : RequestRow) (updates : Updates) (event : EventRow) : Handler RequestRow := do
  let updated := updates.item item
  let events ← listEvents updated.requestId
  return { updated with
    history := if events ≠ [] then events
      else if updated.history ≠ [] then updated.history else [event] }

def updateRequestOperations (item : RequestRow) (updates : Updates) (event : EventRow)
    (expected : RequestStatus) (clearOpenGuard : Bool) : List (Write Key Row) :=
  [updates.operation event.requestId expected, putEvent event] ++
    if clearOpenGuard then [.delete (.openGuard item.parentId) fun _ => true] else []

/-- `_update_request_item` -/
def updateRequestItem (item : RequestRow) (updates : Updates) (event : EventRow)
    (expected : RequestStatus) (clearOpenGuard cancelled : Bool) : Handler RequestRow := do
  transactWrite (updateRequestOperations item updates event expected clearOpenGuard) cancelled
    "Subscription request changed before update could be applied"
  changed item updates event

/-- The arguments of `update_request_status` and `apply_request`, with the time
and the identity of the event. -/
structure ChangeRequest where
  requestId : String
  adminNote : Option String
  effectiveAt : Option String
  user : User
  now : String
  eventHex : String
  cancelled : Bool

namespace ChangeRequest

def event (r : ChangeRequest) (status : RequestStatus) (updates : Updates)
    (changes : List (String × Option String)) : EventRow where
  entityType := "subscription_request_event"
  eventId := "subevt-" ++ r.eventHex
  requestId := r.requestId
  eventType := status
  eventAt := r.now
  actorId := r.user.actorId
  actorRole := r.user.actorRole
  note := cleanNote (updates.adminNote.getD none)
  changes := changes

def updates (r : ChangeRequest) (status : RequestStatus) : Updates where
  status := status
  updatedAt := r.now
  adminNote := r.adminNote.map fun note => cleanNote (some note)
  effectiveAt := r.effectiveAt
  appliedAt := none
  appliedBy := none

/-- What the event of an update says has changed. -/
def changes (r : ChangeRequest) (status : RequestStatus) : List (String × Option String) :=
  [("status", some status.value)] ++
    (r.adminNote.elim [] fun note => [("admin_note", cleanNote (some note))]) ++
    r.effectiveAt.elim [] fun at_ => [("effective_at", some at_)]

end ChangeRequest

def updateRequestStatus (r : ChangeRequest) (status : String) : Handler RequestRow := do
  let status ← RowStore.Handler.of (requireChoice (RequestStatus.all.filter (· ≠ .applied))
    RequestStatus.value status "status")
  let item ← getRequestItem r.requestId
  if status = item.status ∧ truthy r.adminNote = none ∧ truthy r.effectiveAt = none then
    getRequest r.requestId
  else
    RowStore.Handler.of (requireTransition item.status status)
    let updates := r.updates status
    updateRequestItem item updates (r.event status updates (r.changes status)) item.status
      status.isTerminal r.cancelled

/-! ## Applying -/

namespace ChangeRequest

def applyUpdates (r : ChangeRequest) (item : RequestRow) : Updates where
  status := .applied
  updatedAt := r.now
  adminNote := r.adminNote.map fun note => cleanNote (some note)
  effectiveAt :=
    some (((truthy r.effectiveAt).orElse fun _ => truthy item.effectiveAt).getD r.now)
  appliedAt := some r.now
  appliedBy := some r.user.actorId

def applyEvent (r : ChangeRequest) (item : RequestRow) (tier : SubscriptionTier) : EventRow :=
  r.event .applied (r.applyUpdates item)
    [("subscription_tier", some tier.value), ("effective_at", (r.applyUpdates item).effectiveAt)]

def applyOperations (r : ChangeRequest) (item : RequestRow) (tier : SubscriptionTier)
    (profileOperations : List (Write Key Row)) : List (Write Key Row) :=
  profileOperations ++ [
    (r.applyUpdates item).operation r.requestId .approved,
    putEvent (r.applyEvent item tier),
    .delete (.openGuard item.parentId) fun _ => true]

/-- `_apply_request_item` -/
def applyItem (r : ChangeRequest) (item : RequestRow) (tier : SubscriptionTier) :
    Handler RequestRow := do
  let profile ← requireParent item.parentId
  let profileOperations ← versionedProfileOperations item.parentId profile tier.value
  transactWrite (r.applyOperations item tier profileOperations) r.cancelled
    "Subscription request changed before apply could complete"
  changed item (r.applyUpdates item) (r.applyEvent item tier)

/-- The billing row of an override: what it keeps of the row before. -/
def overrideItem (r : ChangeRequest) (parent tier : String) (existing : BillingRow) :
    BillingRow where
  parentId := parent
  subscriptionTier := some tier
  requestedTier := some tier
  billingProvider := existing.billingProvider
  billingMode := some "manual"
  billingStatus := some "manual_override"
  providerCustomerId := existing.providerCustomerId
  providerSubscriptionId := existing.providerSubscriptionId
  providerPriceId := existing.providerPriceId
  checkoutSessionId := existing.checkoutSessionId
  checkoutUrl := existing.checkoutUrl
  successUrl := existing.successUrl
  cancelUrl := existing.cancelUrl
  currentPeriodStart := existing.currentPeriodStart
  currentPeriodEnd := existing.currentPeriodEnd
  cancelAtPeriodEnd := existing.cancelAtPeriodEnd
  lastProviderEventId := existing.lastProviderEventId
  lastProviderEventType := existing.lastProviderEventType
  lastProviderEventAt := existing.lastProviderEventAt
  manualOverrideAt := some r.now
  manualOverrideBy := some r.user.actorId
  manualOverrideSource := some r.requestId
  createdAt := (truthy existing.createdAt).or (some r.now)
  updatedAt := some r.now

/-- `_record_manual_override` -/
def recordManualOverride (r : ChangeRequest) (parent tier : String) : Handler Unit := do
  let existing := (← getBillingItem parent).getD { parentId := parent }
  let item := r.overrideItem parent tier existing
  putItem (.billing parent) item
  putBillingEvent {
    parentId := parent
    eventId := "manual_override_" ++ r.requestId
    eventType := "manual_override"
    eventAt := r.now
    provider := (truthy item.billingProvider).getD "manual"
    providerMode := some "manual"
    billingStatus := some "manual_override"
    requestedTier := some tier }

end ChangeRequest

def applyRequest (r : ChangeRequest) : Handler RequestRow := do
  let item ← getRequestItem r.requestId
  if item.status ≠ .approved then
    throw (.http 409 "Only approved subscription requests can be applied")
  else if item.parentId = "" then
    throw (.http 400 "Subscription request is missing parent_id")
  else
    let _ ← requireParent item.parentId
    let tier ← RowStore.Handler.of (normalizeTier (some item.requestedTier))
    let updated ← r.applyItem item tier
    r.recordManualOverride item.parentId tier.value
    return updated

/-! ## The service -/

inductive RequestCall where
  | create (r : CreateRequest)
  | update (r : ChangeRequest) (status : String)
  | apply (r : ChangeRequest)

def RequestCall.body : RequestCall → Program Key Row (Except Raised RequestRow)
  | .create r => (createParentRequest r).run
  | .update r status => (updateRequestStatus r status).run
  | .apply r => (applyRequest r).run

/-- The rows of requests, which no other code writes. -/
def IsRequestRow : Key → Prop
  | .request _ => True
  | .requestEvent _ _ _ => True
  | .openGuard _ => True
  | _ => False

def requestService (faults : Faults) : Service Key Row RequestCall (Except Raised RequestRow) where
  body := RequestCall.body
  mayStart := fun _ _ => True
  drift := fun t t' => t'.AgreesOn IsRequestRow t
  faults := faults

end Stoa.Subscription
