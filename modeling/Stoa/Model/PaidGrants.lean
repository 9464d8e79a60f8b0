import Stoa.Model.PaidEntitlement

/-! # Publishing and raising grants

An activation writes the grants of a checkout, an upgrade raises those of a
subscription, both under the proof of the relationships that they rest on. -/

namespace Stoa.PaidEntitlement

open RowStore Billing
open Relationships hiding Key Row

variable (env : Env)

/-! ## Conditions -/

/-- `_profile_condition` -/
def profileCondition (user role : String) (version : ℤ) : ConditionCheck where
  key := .account (.profile user)
  condition := Option.any fun profile =>
    profile.userId = user ∧ profile.role = role ∧ profile.accountStatus = some "active" ∧
      profile.version = some version

/-- What `_link_condition` asks of one side of a link. -/
def isChildLink (parent student : String) (link : LinkRow) : Bool :=
  link.entityType = ENTITY_TYPE ∧ link.parentId = parent ∧ link.studentId = student ∧
    link.relationship = some BENEFICIARY_RELATIONSHIP ∧ link.status = STATUS_ACTIVE

def fenceCondition (user : String) (generation : ℤ) : ConditionCheck where
  key := .account (.accountFence user)
  condition := activeFenceCondition (some generation)

/-- `_proof_operations` -/
def proofOperations (parent student : String) (proof : RelationshipProof) (includeParent : Bool) :
    List ConditionCheck :=
  (if includeParent then [
      profileCondition parent "parent" proof.parentProfileVersion,
      fenceCondition parent proof.parentFenceGeneration]
    else []) ++ [
    profileCondition student "student" proof.studentProfileVersion,
    ⟨.account (.parentSide parent student), Option.any (isChildLink parent student)⟩,
    ⟨.account (.studentSide student parent), Option.any (isChildLink parent student)⟩,
    fenceCondition student proof.studentFenceGeneration]

/-- `_with_relationship_evidence` -/
def withRelationshipEvidence (item : GrantRow) (proof : RelationshipProof) : GrantRow :=
  { item with
    relationshipSource := RELATIONSHIP_SOURCE_LINK
    parentProfileVersion := proof.parentProfileVersion
    parentAccountFenceGeneration := proof.parentFenceGeneration
    studentProfileVersion := proof.studentProfileVersion
    studentAccountFenceGeneration := proof.studentFenceGeneration }

/-- The conditions of all beneficiaries; those on the parent come once. -/
def allProofOperations (parent : String) : List (String × RelationshipProof) → Bool →
    List ConditionCheck
  | [], _ => []
  | (student, proof) :: rest, includeParent =>
    proofOperations parent student proof includeParent ++ allProofOperations parent rest false

/-! ## Publishing -/

/-- One proof after another, in the order of the students. -/
def relationshipProofs (parent : String) : List String → Find (List (String × RelationshipProof))
  | [] => return []
  | student :: rest => do
    let proof ← relationshipProof parent student
    return (student, proof) :: (← relationshipProofs parent rest)

/-- The grant of an activation. -/
def activatedGrant (r : PaidActivationRequest) (subscription : Sha256) (student : String)
    (proof : RelationshipProof) : GrantItem where
  owner := r.parentId
  student := student
  row := {
    entityType := "beneficiary_grant"
    schemaVersion := GRANT_SCHEMA_VERSION
    parentId := r.parentId
    beneficiaryId := student
    grantStatus := "active"
    commandId := r.commandId
    subscriptionIdDigest := subscription
    grantVersion := r.activationVersion
    planId := r.planId
    planVersion := r.planVersion
    allowanceVersion := r.allowanceVersion
    activationVersion := r.activationVersion
    activatedAt := r.activatedAt.text
    relationshipSource := RELATIONSHIP_SOURCE_LINK
    parentProfileVersion := proof.parentProfileVersion
    parentAccountFenceGeneration := proof.parentFenceGeneration
    studentProfileVersion := proof.studentProfileVersion
    studentAccountFenceGeneration := proof.studentFenceGeneration }

structure PaidGrantBuild where
  grantItems : List GrantItem
  grantOperations : List ConditionCheck

/-- The subscription and the beneficiaries that the command and the request agree on. -/
def activationScope (r : PaidActivationRequest) (command : CommandRow) :
    Except Failure (Sha256 × List String) := do
  let selected ← validateBeneficiarySelection r.planId command.beneficiaryIds
  match r.providerSubscriptionIdDigest.or command.providerSubscriptionIdDigest with
  | none => .error (.valueError "provider_subscription_id_digest is invalid")
  | some subscription =>
    if command.commandId ≠ r.commandId ∨ command.parentId ≠ r.parentId ∨
        command.planId ≠ r.planId ∨ command.planVersion ≠ r.planVersion ∨
        command.providerSubscriptionIdDigest ≠ some subscription then
      .error (.paidGrantConflict "activation does not match the checkout command")
    else return (subscription, selected)

def buildPaidActivationOperations (r : PaidActivationRequest) (command : CommandRow) :
    Find PaidGrantBuild := do
  let (subscription, selected) ← Fetch.of (activationScope r command)
  let proofs ← relationshipProofs r.parentId selected
  return {
    grantItems := proofs.map fun (student, proof) => activatedGrant r subscription student proof
    grantOperations := allProofOperations r.parentId proofs true }

/-- `commit_paid_activation` of the paid entitlements. -/
def commitPaidActivation (r : PaidActivationRequest) (command : CommandRow)
    (billingProjection allowanceItem : ProjectedItem) : RepoCall ActivationResult :=
  (buildPaidActivationOperations r command).run.run accounts fun
    | .error (.paidGrantConflict _) => .ret (.ok ⟨.conflict, none⟩)
    | .error failure => .ret (.error failure)
    | .ok built => Billing.commitPaidActivation r {
        billingProjection := billingProjection
        grantItems := built.grantItems
        allowanceItem := allowanceItem
        grantOperations := built.grantOperations }

/-! ## Raising -/

inductive PaidGrantDisposition where
  | upgraded
  | alreadyApplied
  | conflict
  | retryable
  deriving DecidableEq, Repr

structure UpgradeRequest where
  parentId : String
  beneficiaryIds : List String
  subscriptionIdDigest : Sha256
  commandId : String
  planId : BillingPlanId
  planVersion : ℤ
  allowanceVersion : ℤ
  activationVersion : ℤ
  activatedAt : Datetime

namespace UpgradeRequest

def checked (r : UpgradeRequest) : Except Failure (List String) := do
  let _ ← requireText r.parentId "parent_id" 1 200
  let _ ← requireText r.commandId "command_id" 1 200
  let selected ← validateBeneficiarySelection r.planId r.beneficiaryIds
  let _ ← positiveInteger r.planVersion "plan_version"
  let _ ← positiveInteger r.allowanceVersion "allowance_version"
  let _ ← positiveInteger r.activationVersion "activation_version"
  let _ ← requireAware r.activatedAt "activated_at"
  return selected

/-- `_upgrade_matches` -/
def matchesGrant (r : UpgradeRequest) (grant : GrantRow) : Bool :=
  grant.commandId = r.commandId ∧ grant.subscriptionIdDigest = r.subscriptionIdDigest ∧
    grant.planId = r.planId ∧ grant.planVersion = r.planVersion ∧
    grant.allowanceVersion = r.allowanceVersion ∧ grant.grantVersion = r.activationVersion ∧
    grant.activationVersion = r.activationVersion

/-- Every version and the plan go up. -/
def raises (r : UpgradeRequest) (grant : GrantRow) : Bool :=
  grant.subscriptionIdDigest = r.subscriptionIdDigest ∧
    PLAN_RANK grant.planId < PLAN_RANK r.planId ∧ grant.planVersion < r.planVersion ∧
    grant.allowanceVersion < r.allowanceVersion ∧ grant.grantVersion < r.activationVersion

/-- Each grant is checked before its relationship is; the first that is not
raised ends it. -/
def proofs (r : UpgradeRequest) :
    List GrantRow → Find (Option (List (GrantRow × RelationshipProof)))
  | [] => return some []
  | grant :: rest => do
    if ¬ r.raises grant then return none
    let proof ← relationshipProof r.parentId grant.beneficiaryId
    return (← proofs r rest).map ((grant, proof) :: ·)

def upgradedGrant (r : UpgradeRequest) (grant : GrantRow) (proof : RelationshipProof) : GrantRow :=
  withRelationshipEvidence
    { grant with
      commandId := r.commandId
      grantVersion := r.activationVersion
      planId := r.planId
      planVersion := r.planVersion
      allowanceVersion := r.allowanceVersion
      activationVersion := r.activationVersion
      activatedAt := env.isoformat r.activatedAt } proof

def condition (r : UpgradeRequest) (grant stored : GrantRow) : Bool :=
  stored.grantStatus = "active" ∧ stored.grantVersion = grant.grantVersion ∧
    stored.planVersion = grant.planVersion ∧ stored.allowanceVersion = grant.allowanceVersion ∧
    stored.subscriptionIdDigest = r.subscriptionIdDigest

def operations (r : UpgradeRequest) :
    List (GrantRow × RelationshipProof) → Bool → List (Write Key Row)
  | [], _ => []
  | (grant, proof) :: rest, includeParent =>
    ((proofOperations r.parentId grant.beneficiaryId proof includeParent).map fun check =>
      Write.check check.key check.condition) ++
    .put (.account (.grant r.parentId grant.beneficiaryId)) (r.upgradedGrant env grant proof)
      (Option.any (r.condition grant)) :: operations r rest false

def answer (disposition : PaidGrantDisposition) : RepoCall PaidGrantDisposition :=
  .ret (.ok disposition)

/-- The stored grants of the beneficiaries. -/
def current (r : UpgradeRequest) (selected : List String) : RepoCall (Option (List GrantRow)) :=
  readGrants r.parentId (fun beneficiary item => activeGrant item r.parentId beneficiary) selected

def refresh (r : UpgradeRequest) (selected : List String) : RepoCall PaidGrantDisposition :=
  (r.current selected).bind fun
    | .ok (some replayed) =>
      answer (if replayed.all r.matchesGrant then .alreadyApplied else .retryable)
    | _ => answer .retryable

def submit (r : UpgradeRequest) (selected : List String) (grants : List GrantRow) :
    RepoCall PaidGrantDisposition :=
  (r.proofs grants).run.run accounts fun
    | .error .tableError => .ret (.error .tableError)
    | .error _ => answer .conflict
    | .ok none => answer .conflict
    | .ok (some proofs) =>
      .transact (r.operations env proofs true) fun
        | true => answer .upgraded
        | false => r.refresh selected

def run (r : UpgradeRequest) (selected : List String) : RepoCall PaidGrantDisposition :=
  (r.current selected).bind fun
    | .error failure => .ret (.error failure)
    | .ok none => answer .conflict
    | .ok (some grants) =>
      if grants.all r.matchesGrant then answer .alreadyApplied
      else r.submit env selected grants

end UpgradeRequest

def applyPaidUpgrade (r : UpgradeRequest) : RepoCall PaidGrantDisposition :=
  match r.checked with
  | .error failure => .ret (.error failure)
  | .ok selected => r.run env selected

end Stoa.PaidEntitlement
