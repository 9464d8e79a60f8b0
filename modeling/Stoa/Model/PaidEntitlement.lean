import Stoa.Model.BillingFacts

/-! # Paid grants and their transitions

A grant is published by an activation, raised by an upgrade, and lowered or
ended by a transition that was persisted before it is due. -/

namespace Stoa.PaidEntitlement

open RowStore Billing

/-! ## Identities -/

/-- What a transition identity is the digest of. -/
inductive TransitionParts where
  | periodEnd (subscription : Sha256) (planVersion : ℤ) (current target : BillingPlanId)
      (effectiveAt : Datetime)
  | renewalGrace (subscription : Sha256) (planVersion : ℤ) (failure : String) (started : Datetime)
  deriving DecidableEq

/-- What the paid grants take from outside: the digest of an identity, and the
text of a time. -/
structure Env where
  transitionIdentity : TransitionParts → Sha256
  isoformat : Datetime → String

variable (env : Env)

def TRANSITION_SCHEMA_VERSION : String := "paid_transition.v1"

def GRANT_HISTORY_SCHEMA_VERSION : String := "paid_grant_history.v1"

/-- Where the relationship behind a grant comes from. -/
def RELATIONSHIP_SOURCE_LINK : String := Relationships.ENTITY_TYPE

/-- Seventy-two hours, in microseconds. -/
def RENEWAL_GRACE_DURATION : ℤ := 72 * 3600 * 1000000

def FREE_STORAGE_BYTES : ℤ := 5 * 1024 * 1024 * 1024

def PAID_STORAGE_BYTES : ℤ := 15 * 1024 * 1024 * 1024

/-- `_PLAN_RANK` -/
def PLAN_RANK : BillingPlanId → ℕ
  | .freeTrial => 0
  | .student => 1
  | .teacherSupported => 2
  | .family => 3

def attachmentStorageLimit (plan : BillingPlanId) : ℤ :=
  if plan = .freeTrial then FREE_STORAGE_BYTES else PAID_STORAGE_BYTES

/-! ## Checks on arguments -/

/-- `_aware_timestamp` -/
def requireAware (value : Datetime) (field : String) : Except Failure Datetime :=
  if value.utcoffset.isSome then .ok value else .error (.valueError (field ++ " is invalid"))

/-- `_transition_beneficiaries` -/
def transitionBeneficiaries (values : List String) : Except Failure (List String) := do
  let beneficiaries ← values.mapM fun value => requireText value "beneficiary_id" 1 200
  if 1 ≤ beneficiaries.length ∧ beneficiaries.length ≤ 3 ∧ beneficiaries.Nodup then
    return beneficiaries.insertionSort (· ≤ ·)
  else .error (.valueError "beneficiary_ids are invalid")

/-- The beneficiaries that a plan may be selected for. -/
def validateBeneficiarySelection (plan : BillingPlanId) (beneficiaryIds : List String) :
    Except Failure (List String) := do
  if plan = .freeTrial then .error (.valueError "plan_id is not a paid plan")
  else
    let selected ← beneficiaryIds.mapM fun value => requireText value "beneficiary_id" 1 200
    if ¬ selected.Nodup then .error (.valueError "beneficiary_ids must be unique")
    else if (if plan = .family then 1 ≤ selected.length ∧ selected.length ≤ 3
        else selected.length = 1) then return selected.insertionSort (· ≤ ·)
    else .error (.valueError "beneficiary selection does not match the paid plan")

/-! ## Persisting transitions -/

inductive PaidTransitionDisposition where
  | scheduled
  | graceStarted
  | graceCleared
  | applied
  | notDue
  | alreadyApplied
  | conflict
  | retryable
  deriving DecidableEq, Repr

structure PaidTransitionResult where
  disposition : PaidTransitionDisposition
  transition : Option TransitionRow

def answer (disposition : PaidTransitionDisposition) (transition : Option TransitionRow) :
    RepoCall PaidTransitionResult :=
  .ret (.ok ⟨disposition, transition⟩)

/-- `_transition_item`: the row, if it is one of a transition. -/
def transitionItem (item : Option TransitionRow) : Option TransitionRow :=
  item.filter fun item =>
    item.entityType = "paid_transition" ∧ item.schemaVersion = TRANSITION_SCHEMA_VERSION

/-- Where a transition is stored. -/
structure TransitionKey where
  parentId : String
  transitionKind : TransitionKind
  subscriptionIdDigest : Sha256
  deriving DecidableEq

abbrev TransitionKey.key (k : TransitionKey) : Key :=
  .transition k.parentId k.transitionKind k.subscriptionIdDigest

/-- The row that was read has not been replaced. -/
def unchanged (previous stored : TransitionRow) : Bool :=
  stored.transitionIdentity = previous.transitionIdentity ∧
    stored.transitionVersion = previous.transitionVersion ∧ stored.status = previous.status

/-- `_transition_put` -/
def transitionPut (k : TransitionKey) (item : TransitionRow) :
    Option TransitionRow → Write Key Row
  | none => .putNew k.key item
  | some previous => .put k.key item (Option.any (unchanged previous))

/-- `_persist_transition` -/
def persistTransition (k : TransitionKey) (item : TransitionRow) (previous : Option TransitionRow)
    (success : PaidTransitionDisposition) : RepoCall PaidTransitionResult :=
  .transact [transitionPut k item previous] fun
    | true => answer success (some item)
    | false =>
      .read k.key fun
        | none => .ret (.error .tableError)
        | some stored =>
          match (transitionItem stored).filter fun replayed => unchanged item replayed with
          | some replayed => answer .alreadyApplied (some replayed)
          | none => answer .retryable none

/-- The version that follows the stored one. -/
def nextTransitionVersion (previous : Option TransitionRow) : Except Failure ℤ :=
  match previous with
  | none => .ok 1
  | some previous => do
    return (← positiveInteger previous.transitionVersion "transition_version") + 1

/-! ## Scheduling a lower plan -/

structure ScheduleRequest where
  parentId : String
  beneficiaryIds : List String
  subscriptionIdDigest : Sha256
  currentPlan : BillingPlanId
  targetPlan : BillingPlanId
  planVersion : ℤ
  periodEnd : Datetime

namespace ScheduleRequest

def key (r : ScheduleRequest) : TransitionKey := ⟨r.parentId, .periodEnd, r.subscriptionIdDigest⟩

def identity (r : ScheduleRequest) : Sha256 :=
  env.transitionIdentity (.periodEnd r.subscriptionIdDigest r.planVersion r.currentPlan
    r.targetPlan r.periodEnd)

/-- The checked beneficiaries. -/
def checked (r : ScheduleRequest) : Except Failure (List String) := do
  let _ ← requireText r.parentId "parent_id" 1 200
  let beneficiaries ← transitionBeneficiaries r.beneficiaryIds
  if r.currentPlan = .freeTrial ∨ PLAN_RANK r.currentPlan ≤ PLAN_RANK r.targetPlan then
    .error (.valueError "period-end transition must lower an active paid plan")
  else
    let _ ← positiveInteger r.planVersion "plan_version"
    let _ ← requireAware r.periodEnd "period_end"
    return beneficiaries

def item (r : ScheduleRequest) (beneficiaries : List String) (version : ℤ) : TransitionRow where
  entityType := "paid_transition"
  schemaVersion := TRANSITION_SCHEMA_VERSION
  transitionKind := .periodEnd
  transitionIdentity := r.identity env
  parentId := r.parentId
  subscriptionIdDigest := r.subscriptionIdDigest
  beneficiaryIds := beneficiaries
  currentPlan := r.currentPlan
  targetPlan := r.targetPlan
  planVersion := r.planVersion
  failureIdentity := none
  effectiveAt := r.periodEnd
  graceStartedAt := none
  graceExpiresAt := none
  transitionVersion := version
  status := .scheduled
  clearedAt := none
  appliedAt := none
  attachmentStorageLimit := none

/-- What the stored transition says to a new one; `none` where it may be replaced. -/
def refused (r : ScheduleRequest) (previous : TransitionRow) : Option PaidTransitionDisposition :=
  if previous.transitionIdentity = r.identity env then some .alreadyApplied
  else if previous.planVersion < 1 ∨ r.planVersion ≤ previous.planVersion ∨
      previous.status = .applied then some .conflict
  else none

def run (r : ScheduleRequest) (beneficiaries : List String) : RepoCall PaidTransitionResult :=
  .read r.key.key fun
    | none => .ret (.error .tableError)
    | some stored =>
      let previous := transitionItem stored
      match previous.bind (r.refused env) with
      | some refused => answer refused previous
      | none =>
        match nextTransitionVersion previous with
        | .error failure => .ret (.error failure)
        | .ok version =>
          persistTransition r.key (r.item env beneficiaries version) previous .scheduled

end ScheduleRequest

def schedulePeriodEndTransition (r : ScheduleRequest) : RepoCall PaidTransitionResult :=
  match r.checked with
  | .error failure => .ret (.error failure)
  | .ok beneficiaries => r.run env beneficiaries

/-! ## Grace -/

structure GraceRequest where
  parentId : String
  beneficiaryIds : List String
  subscriptionIdDigest : Sha256
  planId : BillingPlanId
  planVersion : ℤ
  failureIdentity : String
  failedAt : Datetime

namespace GraceRequest

def key (r : GraceRequest) : TransitionKey := ⟨r.parentId, .renewalGrace, r.subscriptionIdDigest⟩

def identity (r : GraceRequest) : Sha256 :=
  env.transitionIdentity (.renewalGrace r.subscriptionIdDigest r.planVersion r.failureIdentity
    r.failedAt)

def checked (r : GraceRequest) : Except Failure (List String) := do
  let _ ← requireText r.parentId "parent_id" 1 200
  let beneficiaries ← transitionBeneficiaries r.beneficiaryIds
  if r.planId = .freeTrial then .error (.valueError "plan_id is not paid")
  else
    let _ ← positiveInteger r.planVersion "plan_version"
    let _ ← requireText r.failureIdentity "failure_identity" 1 200
    let _ ← requireAware r.failedAt "failed_at"
    return beneficiaries

def expires (r : GraceRequest) : Datetime :=
  { r.failedAt with reading := r.failedAt.reading + RENEWAL_GRACE_DURATION }

def item (r : GraceRequest) (beneficiaries : List String) (version : ℤ) : TransitionRow where
  entityType := "paid_transition"
  schemaVersion := TRANSITION_SCHEMA_VERSION
  transitionKind := .renewalGrace
  transitionIdentity := r.identity env
  parentId := r.parentId
  subscriptionIdDigest := r.subscriptionIdDigest
  beneficiaryIds := beneficiaries
  currentPlan := r.planId
  targetPlan := .freeTrial
  planVersion := r.planVersion
  failureIdentity := some r.failureIdentity
  effectiveAt := r.expires
  graceStartedAt := some r.failedAt
  graceExpiresAt := some r.expires
  transitionVersion := version
  status := .graceStarted
  clearedAt := none
  appliedAt := none
  attachmentStorageLimit := none

def refused (r : GraceRequest) (previous : TransitionRow) : Option PaidTransitionDisposition :=
  if previous.planVersion < 1 then some .conflict
  else if previous.planVersion = r.planVersion then some .alreadyApplied
  else if r.planVersion < previous.planVersion ∨ previous.status = .graceStarted then
    some .conflict
  else none

def run (r : GraceRequest) (beneficiaries : List String) : RepoCall PaidTransitionResult :=
  .read r.key.key fun
    | none => .ret (.error .tableError)
    | some stored =>
      let previous := transitionItem stored
      match previous.bind r.refused with
      | some refused => answer refused previous
      | none =>
        match nextTransitionVersion previous with
        | .error failure => .ret (.error failure)
        | .ok version =>
          persistTransition r.key (r.item env beneficiaries version) previous .graceStarted

end GraceRequest

def startRenewalGrace (r : GraceRequest) : RepoCall PaidTransitionResult :=
  match r.checked with
  | .error failure => .ret (.error failure)
  | .ok beneficiaries => r.run env beneficiaries

structure ClearRequest where
  parentId : String
  subscriptionIdDigest : Sha256
  transitionIdentity : Sha256
  recoveredAt : Datetime

namespace ClearRequest

def key (r : ClearRequest) : TransitionKey := ⟨r.parentId, .renewalGrace, r.subscriptionIdDigest⟩

def checked (r : ClearRequest) : Except Failure Unit := do
  let _ ← requireText r.parentId "parent_id" 1 200
  let _ ← requireAware r.recoveredAt "recovered_at"
  return ()

def item (r : ClearRequest) (previous : TransitionRow) (version : ℤ) : TransitionRow :=
  { previous with
    status := .cleared
    clearedAt := some r.recoveredAt
    transitionVersion := version }

def run (r : ClearRequest) : RepoCall PaidTransitionResult :=
  .read r.key.key fun
    | none => .ret (.error .tableError)
    | some stored =>
      match transitionItem stored with
      | none => answer .conflict none
      | some previous =>
        if previous.transitionIdentity ≠ r.transitionIdentity then answer .conflict (some previous)
        else if previous.status = .cleared ∨ previous.status = .applied then
          answer .alreadyApplied (some previous)
        else if previous.status ≠ .graceStarted then answer .conflict (some previous)
        else
          match nextTransitionVersion (some previous) with
          | .error failure => .ret (.error failure)
          | .ok version =>
            persistTransition r.key (r.item previous version) (some previous) .graceCleared

end ClearRequest

def clearRenewalGrace (r : ClearRequest) : RepoCall PaidTransitionResult :=
  match r.checked with
  | .error failure => .ret (.error failure)
  | .ok _ => r.run

/-- Grants are read one after another; the first that is not accepted ends it. -/
def readGrants (parent : String)
    (accept : String → Option Relationships.GrantRow → Option Relationships.GrantRow) :
    List String → RepoCall (Option (List Relationships.GrantRow))
  | [] => .ret (.ok (some []))
  | beneficiary :: rest =>
    .read (.account (.grant parent beneficiary)) fun
      | none => .ret (.error .tableError)
      | some item =>
        match accept beneficiary item with
        | none => .ret (.ok none)
        | some grant =>
          (readGrants parent accept rest).bind fun
            | .error failure => .ret (.error failure)
            | .ok grants => .ret (.ok (grants.map (grant :: ·)))

/-! ## Applying what is due -/

structure ApplyRequest where
  parentId : String
  subscriptionIdDigest : Sha256
  transitionKind : TransitionKind
  transitionIdentity : Sha256
  now : Datetime

/-- `_grant_history_item` -/
def grantHistoryItem (grant : Relationships.GrantRow) (transition : TransitionRow) :
    GrantHistoryRow where
  entityType := "paid_grant_history"
  schemaVersion := GRANT_HISTORY_SCHEMA_VERSION
  parentId := grant.parentId
  beneficiaryId := grant.beneficiaryId
  grantVersion := grant.grantVersion
  planId := grant.planId
  planVersion := grant.planVersion
  allowanceVersion := grant.allowanceVersion
  activationVersion := grant.activationVersion
  subscriptionIdDigest := grant.subscriptionIdDigest
  transitionIdentity := transition.transitionIdentity
  retainedAt := transition.effectiveAt

namespace ApplyRequest

def key (r : ApplyRequest) : TransitionKey := ⟨r.parentId, r.transitionKind, r.subscriptionIdDigest⟩

def checked (r : ApplyRequest) : Except Failure Unit := do
  let _ ← requireText r.parentId "parent_id" 1 200
  let _ ← requireAware r.now "now"
  return ()

def expectedStatus (r : ApplyRequest) : TransitionStatus :=
  match r.transitionKind with
  | .periodEnd => .scheduled
  | .renewalGrace => .graceStarted

/-- The grant that the transition replaces. -/
def dueGrant (r : ApplyRequest) (previous : TransitionRow) (beneficiary : String)
    (item : Option Relationships.GrantRow) : Option Relationships.GrantRow :=
  (Relationships.activeGrant item r.parentId beneficiary).filter fun grant =>
    grant.subscriptionIdDigest = r.subscriptionIdDigest ∧ grant.planId = previous.currentPlan ∧
      grant.planVersion < previous.planVersion

/-- The grant under the plan that the transition leads to. -/
def updatedGrant (r : ApplyRequest) (previous : TransitionRow) (grant : Relationships.GrantRow) :
    Relationships.GrantRow :=
  let updated := { grant with
    grantVersion := previous.planVersion
    planVersion := previous.planVersion
    allowanceVersion := previous.planVersion
    transitionIdentity := some r.transitionIdentity
    transitionedAt := some (env.isoformat r.now) }
  if previous.targetPlan = .freeTrial then
    { updated with
      grantStatus := "historical"
      endedAt := some (env.isoformat r.now)
      endedByTransition := some r.transitionIdentity }
  else { updated with planId := previous.targetPlan }

def grantCondition (r : ApplyRequest) (grant stored : Relationships.GrantRow) : Bool :=
  stored.grantStatus = "active" ∧ stored.grantVersion = grant.grantVersion ∧
    stored.planVersion = grant.planVersion ∧
    stored.subscriptionIdDigest = r.subscriptionIdDigest

def grantOperations (r : ApplyRequest) (previous : TransitionRow)
    (grant : Relationships.GrantRow) : List (Write Key Row) := [
  .putNew (.grantHistory grant.parentId grant.beneficiaryId grant.grantVersion)
    (grantHistoryItem grant previous),
  .put (.account (.grant grant.parentId grant.beneficiaryId)) (r.updatedGrant env previous grant)
    (Option.any (r.grantCondition grant))]

def appliedItem (r : ApplyRequest) (previous : TransitionRow) (version : ℤ) : TransitionRow :=
  { previous with
    status := .applied
    appliedAt := some r.now
    attachmentStorageLimit := some (attachmentStorageLimit previous.targetPlan)
    transitionVersion := version }

def operations (r : ApplyRequest) (previous : TransitionRow)
    (grants : List Relationships.GrantRow) (version : ℤ) : List (Write Key Row) :=
  grants.flatMap (r.grantOperations env previous) ++
    [transitionPut r.key (r.appliedItem previous version) (some previous)]

/-- The transition of this identity has been applied. -/
def isApplied (r : ApplyRequest) (item : TransitionRow) : Bool :=
  item.transitionIdentity = r.transitionIdentity ∧ item.status = .applied

def refresh (r : ApplyRequest) (previous : TransitionRow) : RepoCall PaidTransitionResult :=
  .read r.key.key fun
    | none => .ret (.error .tableError)
    | some stored =>
      match (transitionItem stored).filter r.isApplied with
      | some replayed => answer .alreadyApplied (some replayed)
      | none => answer .retryable (some previous)

/-- The transaction, once all grants are read. -/
def submit (r : ApplyRequest) (previous : TransitionRow) (grants : List Relationships.GrantRow) :
    RepoCall PaidTransitionResult :=
  match nextTransitionVersion (some previous) with
  | .error failure => .ret (.error failure)
  | .ok version =>
    .transact (r.operations env previous grants version) fun
      | true => answer .applied (some (r.appliedItem previous version))
      | false => r.refresh previous

/-- A transition that is due. -/
def applyDue (r : ApplyRequest) (previous : TransitionRow) : RepoCall PaidTransitionResult :=
  match positiveInteger previous.planVersion "plan_version",
    transitionBeneficiaries previous.beneficiaryIds with
  | .error _, _ => answer .conflict (some previous)
  | .ok _, .error _ => answer .conflict (some previous)
  | .ok _, .ok beneficiaries =>
    (readGrants r.parentId (r.dueGrant previous) beneficiaries).bind fun
      | .error failure => .ret (.error failure)
      | .ok none => answer .conflict (some previous)
      | .ok (some grants) => r.submit env previous grants

def run (r : ApplyRequest) : RepoCall PaidTransitionResult :=
  .read r.key.key fun
    | none => .ret (.error .tableError)
    | some stored =>
      match transitionItem stored with
      | none => answer .conflict none
      | some previous =>
        if previous.transitionIdentity ≠ r.transitionIdentity then answer .conflict (some previous)
        else if previous.status = .applied ∨ previous.status = .cleared then
          answer .alreadyApplied (some previous)
        else if previous.status ≠ r.expectedStatus then answer .conflict (some previous)
        else if previous.effectiveAt.utcoffset.isNone then answer .conflict (some previous)
        else if r.now.instant < previous.effectiveAt.instant then answer .notDue (some previous)
        else r.applyDue env previous

end ApplyRequest

def applyDuePaidTransition (r : ApplyRequest) : RepoCall PaidTransitionResult :=
  match r.checked with
  | .error failure => .ret (.error failure)
  | .ok _ => r.run env

end Stoa.PaidEntitlement
