import Stoa.Model.Billing

/-! # Checkout commands

One command for each checkout operation of a parent, persisted before the
provider is called. A call reads the command, decides, submits one conditional
transaction, and classifies a failed transaction from a second read. -/

namespace Stoa.Billing

open RowStore

/-! ## Identities -/

/-- What an intent fingerprint is the digest of. -/
structure IntentPayload where
  parentId : String
  planId : BillingPlanId
  beneficiaryIds : List String
  priceId : String
  priceCatalogVersion : ℤ
  planVersion : ℤ
  environment : String

/-- What the repositories take from outside: digests of texts under a domain, of
canonical payloads, and of plain texts. -/
structure Env where
  domainDigest : String → List String → Sha256
  intentDigest : IntentPayload → Sha256
  textDigest : String → Sha256

variable (env : Env)

/-- Lower case, on ASCII letters; deployment names have no others. -/
def lower (text : String) : String := String.ofList (text.toList.map Char.toLower)

/-- The characters of `_IDEMPOTENCY_KEY_PATTERN`. -/
def isKeyCharacter (c : Char) : Bool := 0x21 ≤ c.toNat && c.toNat ≤ 0x7e

/-- The characters of a public reference after its prefix. -/
def isRefCharacter (c : Char) : Bool := c.isAlphanum || c == '_' || c == '-'

/-- `_PUBLIC_REF_PATTERN` -/
def isPublicRef (reference : String) : Bool :=
  match reference.toList with
  | 'c' :: 'o' :: '_' :: rest =>
      decide (32 ≤ rest.length) && decide (rest.length ≤ 100) && rest.all isRefCharacter
  | _ => false

def checkoutCommandId (parent idempotencyKey : String) : Except Failure String := do
  let parent ← requireText parent "parent_id" 1 200
  let key ← requireText idempotencyKey "idempotency_key" 8 128
  if key.toList.all isKeyCharacter then
    return "checkout-" ++ (env.domainDigest "stoa.checkout.command.v1" [parent, key]).val
  else .error (.valueError "idempotency_key is invalid")

def canonicalIntentFingerprint (payload : IntentPayload) : Except Failure Sha256 := do
  if payload.beneficiaryIds = [] ∨ 3 < payload.beneficiaryIds.length ∨
      ¬ payload.beneficiaryIds.Nodup ∨ "" ∈ payload.beneficiaryIds then
    .error (.valueError "beneficiary_ids are invalid")
  else
    let parent ← requireText payload.parentId "parent_id" 1 200
    let price ← requireText payload.priceId "price_id" 1 200
    let catalog ← positiveInteger payload.priceCatalogVersion "price_catalog_version"
    let plan ← positiveInteger payload.planVersion "plan_version"
    let environment ← requireText payload.environment "environment" 1 32
    return env.intentDigest {
      parentId := parent
      planId := payload.planId
      beneficiaryIds := payload.beneficiaryIds.insertionSort (· ≤ ·)
      priceId := price
      priceCatalogVersion := catalog
      planVersion := plan
      environment := lower environment }

def providerKeyDigest (commandId : String) (fingerprint : Sha256) : Sha256 :=
  env.domainDigest "stoa.checkout.provider-key.v1"
    [commandId, fingerprint.val, toString PROVIDER_KEY_VERSION]

def providerSessionIdDigest (session : String) : Sha256 :=
  env.domainDigest "stoa.checkout.provider-session.v1" [session]

/-- A validated intent; its beneficiaries are within the plan's scope. -/
structure CheckoutIntent where
  commandId : Text
  parentId : Text
  idempotencyKey : Text
  planId : PurchasablePlanId
  beneficiaryIds : List Text
  priceCatalogVersion : Version
  planVersion : Version
  /-- The UTC text of the instant it was created. -/
  createdAt : String
  one_to_three : 1 ≤ beneficiaryIds.length ∧ beneficiaryIds.length ≤ 3
  unique : beneficiaryIds.Nodup
  single : planId ≠ .family → beneficiaryIds.length = 1

def checkoutIntentFingerprint (intent : CheckoutIntent) (priceId environment : String) :
    Except Failure Sha256 := do
  let expected ← checkoutCommandId env intent.parentId.val intent.idempotencyKey.val
  if intent.commandId.val ≠ expected then
    .error (.valueError "checkout command identity is invalid")
  else
    let price ← requireText priceId "price_id" 1 200
    let deployment ← requireText environment "environment" 1 32
    canonicalIntentFingerprint env {
      parentId := intent.parentId.val
      planId := intent.planId.plan
      beneficiaryIds := intent.beneficiaryIds.map Text.val
      priceId := price
      priceCatalogVersion := intent.priceCatalogVersion.val
      planVersion := intent.planVersion.val
      environment := lower deployment }

/-! ## Results -/

inductive CheckoutCommandDisposition where
  | created
  | replayed
  | identityMismatch
  | openCommandExists
  | notFound
  | malformed
  | claimed
  | leaseBusy
  | attached
  | alreadyAttached
  | providerOutcomeUnknown
  | staleLease
  | staleVersion
  | released
  | notTerminal
  | retryable
  deriving DecidableEq, Repr

inductive CheckoutSupersessionDisposition where
  | expirationClaimed
  | expirationBusy
  | nonpayableProven
  | reconciliationRequired
  | providerUnknown
  | superseded
  | identityMismatch
  | notFound
  | malformed
  | staleVersion
  | retryable
  deriving DecidableEq, Repr

structure ProviderCreateClaim where
  commandId : String
  parentId : String
  commandVersion : ℤ
  leaseOwner : String
  leaseGeneration : ℤ
  leaseExpiresAt : ℤ
  providerKeyDigest : Sha256
  deriving DecidableEq

structure CheckoutCommandResult where
  disposition : CheckoutCommandDisposition
  command : Option CommandRow
  providerClaim : Option ProviderCreateClaim

structure CheckoutSupersessionResult where
  disposition : CheckoutSupersessionDisposition
  command : Option CommandRow

/-- A call that returns without a claim. -/
def returns (disposition : CheckoutCommandDisposition) (command : Option CommandRow) :
    RepoCall CheckoutCommandResult :=
  .ret (.ok ⟨disposition, command, none⟩)

def concludes (disposition : CheckoutSupersessionDisposition) (command : Option CommandRow) :
    RepoCall CheckoutSupersessionResult :=
  .ret (.ok ⟨disposition, command⟩)

/-! ## Reading commands -/

/-- The fingerprint that the stored identity of a command has. -/
def CommandRow.storedFingerprint (item : CommandRow) : Except Failure Sha256 := do
  let _ ← item.beneficiaryIds.mapM fun member => requireText member "beneficiary_id" 1 200
  canonicalIntentFingerprint env {
    parentId := item.parentId
    planId := item.planId
    beneficiaryIds := item.beneficiaryIds
    priceId := item.priceId
    priceCatalogVersion := item.priceCatalogVersion
    planVersion := item.planVersion
    environment := item.environment }

/-- `_command_integrity`: why a stored command is refused, if it is. -/
def CommandRow.integrity (item : CommandRow) (commandId : String) (parent : Option String)
    (fingerprint : Option Sha256) : Option CheckoutCommandDisposition :=
  if item.entityType ≠ "checkout_command" ∨ item.schemaVersion ≠ COMMAND_SCHEMA_VERSION ∨
      item.commandId ≠ commandId then some .malformed
  else if parent.any fun parent => item.parentId ≠ parent then some .identityMismatch
  else if fingerprint.any fun fingerprint => item.intentFingerprint ≠ fingerprint then
    some .identityMismatch
  else if item.commandVersion < 1 ∨ item.leaseGeneration < 0 ∨
      item.providerKeyVersion ≠ PROVIDER_KEY_VERSION ∨ ¬ isPublicRef item.checkoutRef then
    some .malformed
  else
    match item.storedFingerprint env with
    | .error _ => some .malformed
    | .ok stored =>
      if item.intentFingerprint ≠ stored ∨
          item.providerKeyDigest ≠ Billing.providerKeyDigest env commandId item.intentFingerprint then
        some .malformed
      else none

/-- `_provider_claim` -/
def CommandRow.providerClaim (item : CommandRow) : Except Failure ProviderCreateClaim := do
  let commandId ← requireText item.commandId "command_id" 1 200
  let parentId ← requireText item.parentId "parent_id" 1 200
  let commandVersion ← positiveInteger item.commandVersion "command_version"
  let leaseOwner ← requireText (item.leaseOwner.getD "") "lease_owner" 1 200
  let leaseGeneration ← positiveInteger item.leaseGeneration "lease_generation"
  let leaseExpiresAt ← positiveInteger (item.leaseExpiresAt.getD 0) "lease_expires_at"
  return { commandId, parentId, commandVersion, leaseOwner, leaseGeneration, leaseExpiresAt
           providerKeyDigest := item.providerKeyDigest }

/-- The part of a condition that every write of a command shares. -/
def CommandRow.IsAt (row : CommandRow) (commandId parentId : String) (version : ℤ) : Prop :=
  row.entityType = "checkout_command" ∧ row.schemaVersion = COMMAND_SCHEMA_VERSION ∧
    row.commandId = commandId ∧ row.parentId = parentId ∧ row.commandVersion = version

instance (row : CommandRow) (commandId parentId : String) (version : ℤ) :
    Decidable (row.IsAt commandId parentId version) :=
  inferInstanceAs (Decidable (_ ∧ _))

/-- A command's update under the fence of its parent. -/
def fencedUpdate (parent : String) (generation : ℤ) (commandId : String)
    (change : CommandRow → CommandRow) (condition : CommandRow → Bool) : List (Write Key Row) :=
  [activeFence parent generation, .modify (.command commandId) change condition]

/-! ## Registering -/

structure RegisterRequest where
  intent : CheckoutIntent
  priceId : String
  environment : String
  nowIso : Option String
  /-- What `_new_public_ref` draws. -/
  reference : String

/-- An intent with the identity that is stored for it. -/
structure Registration where
  intent : CheckoutIntent
  commandId : String
  fingerprint : Sha256
  priceId : String
  environment : String
  reference : String
  timestamp : String

def RegisterRequest.timestamp (r : RegisterRequest) : String :=
  match r.nowIso with
  | some nowIso => if nowIso = "" then r.intent.createdAt else nowIso
  | none => r.intent.createdAt

def RegisterRequest.checked (r : RegisterRequest) : Except Failure Registration := do
  let commandId ← checkoutCommandId env r.intent.parentId.val r.intent.idempotencyKey.val
  let fingerprint ← checkoutIntentFingerprint env r.intent r.priceId r.environment
  return {
    intent := r.intent
    commandId := commandId
    fingerprint := fingerprint
    priceId := r.priceId
    environment := lower r.environment
    reference := r.reference
    timestamp := r.timestamp }

namespace Registration

/-- The command of a checkout that has not been started. -/
def command (v : Registration) (generation : ℤ) : CommandRow where
  entityType := "checkout_command"
  schemaVersion := COMMAND_SCHEMA_VERSION
  commandId := v.commandId
  parentId := v.intent.parentId.val
  accountFenceGeneration := generation
  intentFingerprint := v.fingerprint
  idempotencyKeyDigest := env.textDigest v.intent.idempotencyKey.val
  checkoutRef := v.reference
  planId := v.intent.planId.plan
  beneficiaryIds := (v.intent.beneficiaryIds.map Text.val).insertionSort (· ≤ ·)
  priceId := v.priceId
  priceCatalogVersion := v.intent.priceCatalogVersion.val
  planVersion := v.intent.planVersion.val
  environment := v.environment
  commandState := .intentRecorded
  commandVersion := 1
  providerKeyVersion := PROVIDER_KEY_VERSION
  providerKeyDigest := providerKeyDigest env v.commandId v.fingerprint
  providerEffectStatus := .notStarted
  expirationEffectStatus := some .notStarted
  leaseGeneration := 0
  leaseOwner := none
  leaseExpiresAt := none
  providerSessionId := none
  providerSessionUrl := none
  providerSessionIdDigest := none
  providerCustomerIdDigest := none
  providerSubscriptionIdDigest := none
  expectedInitialInvoiceIdDigest := none
  supersededByCommandId := none
  supersededAt := none
  activationVersion := none
  paidInvoiceFactId := none
  activeSubscriptionFactId := none
  allowanceVersion := none
  createdAt := v.timestamp
  updatedAt := v.timestamp

def openGuard (v : Registration) (generation : ℤ) : OpenGuardRow where
  entityType := "checkout_open_guard"
  schemaVersion := OPEN_GUARD_SCHEMA_VERSION
  parentId := v.intent.parentId.val
  accountFenceGeneration := generation
  commandId := v.commandId
  commandVersion := 1
  intentFingerprint := v.fingerprint
  createdAt := v.timestamp

def lookup (v : Registration) (generation : ℤ) : PublicLookupRow where
  entityType := "checkout_public_lookup"
  schemaVersion := PUBLIC_LOOKUP_SCHEMA_VERSION
  checkoutRef := v.reference
  parentId := v.intent.parentId.val
  accountFenceGeneration := generation
  commandId := v.commandId
  intentFingerprint := v.fingerprint
  createdAt := v.timestamp

def operations (v : Registration) (generation : ℤ) : List (Write Key Row) := [
  activeFence v.intent.parentId.val generation,
  .putNew (.command v.commandId) (v.command env generation),
  .putNew (.openGuard v.intent.parentId.val) (v.openGuard generation),
  .putNew (.publicLookup v.reference) (v.lookup generation)]

/-- The guard and the lookup are those of the stored command. -/
def replayed (v : Registration) (command : CommandRow) (guard : Option OpenGuardRow)
    (lookup : Option PublicLookupRow) : Bool :=
  let guardValid := guard.any fun guard =>
    guard.schemaVersion = OPEN_GUARD_SCHEMA_VERSION ∧ guard.commandId = v.commandId ∧
      guard.parentId = v.intent.parentId.val
  (if command.commandState.IsTerminal then guard.isNone || guardValid else guardValid) &&
    lookup.any fun lookup =>
      lookup.schemaVersion = PUBLIC_LOOKUP_SCHEMA_VERSION ∧ lookup.commandId = v.commandId ∧
        lookup.parentId = v.intent.parentId.val ∧ lookup.checkoutRef = command.checkoutRef

/-- Another command of the parent is open. -/
def isOther (v : Registration) (guard : OpenGuardRow) : Prop :=
  guard.schemaVersion = OPEN_GUARD_SCHEMA_VERSION ∧ guard.parentId = v.intent.parentId.val ∧
    guard.commandId ≠ v.commandId

instance (v : Registration) (guard : OpenGuardRow) : Decidable (v.isOther guard) :=
  inferInstanceAs (Decidable (_ ∧ _))

/-- What the guard says where the command is not stored. -/
def unregistered (v : Registration) : Option OpenGuardRow → RepoCall CheckoutCommandResult
  | none => returns .retryable none
  | some guard =>
    if v.isOther guard then returns .openCommandExists none else returns .malformed none

/-- `_classify_registration_replay` -/
def classify (v : Registration) (reference : Option String) : RepoCall CheckoutCommandResult :=
  .read (.command v.commandId) fun
    | none => returns .retryable none
    | some (some command) =>
      match command.integrity env v.commandId (some v.intent.parentId.val) (some v.fingerprint) with
      | some refused => returns refused none
      | none =>
        .read (.openGuard v.intent.parentId.val) fun
          | none => returns .retryable none
          | some guard =>
            .read (.publicLookup command.checkoutRef) fun
              | none => returns .retryable none
              | some lookup =>
                if v.replayed command guard lookup then returns .replayed (some command)
                else returns .malformed none
    | some none =>
      .read (.openGuard v.intent.parentId.val) fun
        | none => returns .retryable none
        | some guard =>
          -- The lookup is read where there is a reference; it changes no outcome.
          match reference with
          | none => v.unregistered guard
          | some reference => .read (.publicLookup reference) fun
              | none => returns .retryable none
              | some _ => v.unregistered guard

def run (v : Registration) : RepoCall CheckoutCommandResult :=
  .read (.command v.commandId) fun
    | none => returns .retryable none
    | some (some _) => v.classify env none
    | some none =>
      match requireText v.timestamp "now_iso" 1 64 with
      | .error failure => .ret (.error failure)
      | .ok _ =>
        .read (.account (.accountFence v.intent.parentId.val)) fun
          | none => returns .retryable none
          | some fence =>
            match requireActiveAccountFence fence none with
            | none => returns .retryable none
            | some generation =>
              .transact (v.operations env generation) fun
                | true => returns .created (some (v.command env generation))
                | false => v.classify env (some v.reference)

end Registration

def registerCheckoutCommand (r : RegisterRequest) : RepoCall CheckoutCommandResult :=
  match r.checked env with
  | .error failure => .ret (.error failure)
  | .ok v => v.run env

/-! ## Claiming the provider call -/

/-- `_active_lease` -/
def CommandRow.ActiveLease (item : CommandRow) (now : ℤ) : Prop :=
  (item.providerEffectStatus = .createClaimed ∨
    item.providerEffectStatus = .providerOutcomeUnknown) ∧
  ∃ expiry, item.leaseExpiresAt = some expiry ∧ now < expiry

instance (item : CommandRow) (now : ℤ) : Decidable (item.ActiveLease now) :=
  decidable_of_iff ((item.providerEffectStatus = .createClaimed ∨
    item.providerEffectStatus = .providerOutcomeUnknown) ∧
      item.leaseExpiresAt.any (fun expiry => now < expiry) = true)
    (and_congr_right fun _ => by simp [Option.any_eq_true])

structure ClaimRequest where
  command : Option CommandRow
  leaseOwner : String
  nowEpoch : ℤ
  leaseExpiresAt : ℤ
  nowIso : String

/-- The arguments of `claim_provider_create` once they are checked. -/
structure ProviderClaim where
  commandId : String
  owner : String
  now : ℤ
  expiry : ℤ
  timestamp : String
  expires_later : now < expiry

def ClaimRequest.checked (r : ClaimRequest) (command : CommandRow) :
    Except Failure ProviderClaim := do
  let owner ← requireText r.leaseOwner "lease_owner" 1 200
  let now ← nonnegativeInteger r.nowEpoch "now_epoch"
  let expiry ← positiveInteger r.leaseExpiresAt "lease_expires_at"
  if h : now < expiry then
    let timestamp ← requireText r.nowIso "now_iso" 1 64
    let commandId ← requireText command.commandId "command_id" 1 200
    return { commandId, owner, now, expiry, timestamp, expires_later := h }
  else .error (.valueError "lease_expires_at is invalid")

namespace ProviderClaim

def claim (v : ProviderClaim) (current row : CommandRow) : CommandRow :=
  { row with
    providerEffectStatus := .createClaimed
    commandState := .providerCreatePending
    leaseOwner := some v.owner
    leaseGeneration := current.leaseGeneration + 1
    leaseExpiresAt := some v.expiry
    commandVersion := current.commandVersion + 1
    updatedAt := v.timestamp }

def condition (v : ProviderClaim) (current row : CommandRow) : Bool :=
  row.IsAt v.commandId current.parentId current.commandVersion ∧
    row.providerEffectStatus = current.providerEffectStatus ∧
    (row.providerEffectStatus = .notStarted ∨ row.leaseExpiresAt.any (· ≤ v.now) = true)

def operations (v : ProviderClaim) (current : CommandRow) (generation : ℤ) :
    List (Write Key Row) :=
  fencedUpdate current.parentId generation v.commandId (v.claim current) (v.condition current)

/-- A claim, handed out with the lease that is stored. -/
def granted (command : CommandRow) : RepoCall CheckoutCommandResult :=
  match command.providerClaim with
  | .error failure => .ret (.error failure)
  | .ok claim => .ret (.ok ⟨.claimed, some command, some claim⟩)

/-- The lease that is found after a failed transaction is one's own. -/
def holds (v : ProviderClaim) (current refreshed : CommandRow) : Prop :=
  refreshed.leaseOwner = some v.owner ∧
    refreshed.leaseGeneration = current.leaseGeneration + 1 ∧
    refreshed.providerEffectStatus = .createClaimed

instance (v : ProviderClaim) (current refreshed : CommandRow) :
    Decidable (v.holds current refreshed) :=
  inferInstanceAs (Decidable (_ ∧ _))

def refresh (v : ProviderClaim) (current : CommandRow) : RepoCall CheckoutCommandResult :=
  .read (.command v.commandId) fun
    | none => returns .retryable none
    | some none => returns .retryable none
    | some (some refreshed) =>
      if v.holds current refreshed then granted refreshed
      else if refreshed.ActiveLease v.now then returns .leaseBusy (some refreshed)
      else returns .retryable (some refreshed)

def run (v : ProviderClaim) : RepoCall CheckoutCommandResult :=
  .read (.command v.commandId) fun
    | none => returns .retryable none
    | some none => returns .notFound none
    | some (some current) =>
      match current.integrity env v.commandId none none with
      | some refused => returns refused none
      | none =>
        if current.providerEffectStatus = .sessionAttached then
          returns .alreadyAttached (some current)
        else if current.ActiveLease v.now then returns .leaseBusy (some current)
        else
          match positiveInteger current.accountFenceGeneration "account_fence_generation" with
          | .error failure => .ret (.error failure)
          | .ok generation =>
            .transact (v.operations current generation) fun
              | true => granted (v.claim current current)
              | false => v.refresh current

end ProviderClaim

def claimProviderCreate (r : ClaimRequest) : RepoCall CheckoutCommandResult :=
  match r.command with
  | none => returns .notFound none
  | some command =>
    match r.checked command with
    | .error failure => .ret (.error failure)
    | .ok v => v.run env

/-! ## Outcomes of the provider call -/

/-- The command is still under the lease of the claim. -/
def CommandRow.HeldBy (row : CommandRow) (claim : ProviderCreateClaim) : Prop :=
  row.leaseOwner = some claim.leaseOwner ∧ row.leaseGeneration = claim.leaseGeneration ∧
    row.providerKeyDigest = claim.providerKeyDigest ∧ row.providerEffectStatus = .createClaimed

instance (row : CommandRow) (claim : ProviderCreateClaim) : Decidable (row.HeldBy claim) :=
  inferInstanceAs (Decidable (_ ∧ _))

/-- What `attach_provider_session` and `mark_provider_outcome_unknown` write
under a claim, and on what condition. -/
def underClaim (claim : ProviderCreateClaim) (generation : ℤ)
    (change : CommandRow → CommandRow) : List (Write Key Row) :=
  fencedUpdate claim.parentId generation claim.commandId change fun row =>
    row.IsAt claim.commandId claim.parentId claim.commandVersion ∧ row.HeldBy claim

structure AttachRequest where
  claim : ProviderCreateClaim
  providerSessionId : String
  providerSessionUrl : String
  nowIso : String

/-- The arguments of `attach_provider_session` once they are checked. -/
structure SessionAttachment where
  claim : ProviderCreateClaim
  sessionId : String
  sessionUrl : String
  timestamp : String

def AttachRequest.checked (r : AttachRequest) : Except Failure SessionAttachment := do
  let sessionId ← requireText r.providerSessionId "provider_session_id" 1 255
  let sessionUrl ← requireText r.providerSessionUrl "provider_session_url" 1 2048
  if ¬ "https://".toList.isPrefixOf sessionUrl.toList ∨ sessionUrl.toList.any isSpace then
    .error (.valueError "provider_session_url is invalid")
  else
    let timestamp ← requireText r.nowIso "now_iso" 1 64
    return { claim := r.claim, sessionId, sessionUrl, timestamp }

namespace SessionAttachment

def attach (v : SessionAttachment) (row : CommandRow) : CommandRow :=
  { row with
    providerEffectStatus := .sessionAttached
    commandState := .providerSessionOpen
    providerSessionId := some v.sessionId
    providerSessionUrl := some v.sessionUrl
    providerSessionIdDigest := some (providerSessionIdDigest env v.sessionId)
    commandVersion := v.claim.commandVersion + 1
    updatedAt := v.timestamp }

/-- This very session is attached. -/
def isAttached (v : SessionAttachment) (row : CommandRow) : Prop :=
  row.providerSessionIdDigest = some (providerSessionIdDigest env v.sessionId)

instance (v : SessionAttachment) (row : CommandRow) : Decidable (v.isAttached env row) :=
  inferInstanceAs (Decidable (_ = _))

def operations (v : SessionAttachment) (generation : ℤ) : List (Write Key Row) :=
  underClaim v.claim generation (v.attach env)

def refresh (v : SessionAttachment) : RepoCall CheckoutCommandResult :=
  .read (.command v.claim.commandId) fun
    | none => returns .retryable none
    | some none => returns .retryable none
    | some (some refreshed) =>
      if refreshed.providerEffectStatus = .sessionAttached ∧ v.isAttached env refreshed then
        returns .attached (some refreshed)
      else returns .staleLease (some refreshed)

def run (v : SessionAttachment) : RepoCall CheckoutCommandResult :=
  .read (.command v.claim.commandId) fun
    | none => returns .retryable none
    | some none => returns .notFound none
    | some (some current) =>
      if current.providerEffectStatus = .sessionAttached then
        returns (if v.isAttached env current then .alreadyAttached else .staleLease) (some current)
      else if current.commandVersion ≠ v.claim.commandVersion ∨ ¬ current.HeldBy v.claim then
        returns .staleLease (some current)
      else
        match positiveInteger current.accountFenceGeneration "account_fence_generation" with
        | .error failure => .ret (.error failure)
        | .ok generation =>
          .transact (v.operations env generation) fun
            | true => returns .attached (some (v.attach env current))
            | false => v.refresh env

end SessionAttachment

def attachProviderSession (r : AttachRequest) : RepoCall CheckoutCommandResult :=
  match r.checked with
  | .error failure => .ret (.error failure)
  | .ok v => v.run env

structure MarkUnknownRequest where
  claim : ProviderCreateClaim
  nowIso : String

namespace MarkUnknownRequest

def mark (r : MarkUnknownRequest) (row : CommandRow) : CommandRow :=
  { row with
    providerEffectStatus := .providerOutcomeUnknown
    commandState := .operatorAttentionRequired
    commandVersion := r.claim.commandVersion + 1
    updatedAt := r.nowIso }

/-- The outcome is already unknown under this lease. -/
def isMarked (r : MarkUnknownRequest) (row : CommandRow) : Prop :=
  row.providerEffectStatus = .providerOutcomeUnknown ∧
    row.leaseOwner = some r.claim.leaseOwner ∧ row.leaseGeneration = r.claim.leaseGeneration

instance (r : MarkUnknownRequest) (row : CommandRow) : Decidable (r.isMarked row) :=
  inferInstanceAs (Decidable (_ ∧ _))

def operations (r : MarkUnknownRequest) (generation : ℤ) : List (Write Key Row) :=
  underClaim r.claim generation r.mark

def refresh (r : MarkUnknownRequest) : RepoCall CheckoutCommandResult :=
  .read (.command r.claim.commandId) fun
    | none => returns .retryable none
    | some none => returns .retryable none
    | some (some refreshed) =>
      if r.isMarked refreshed then returns .providerOutcomeUnknown (some refreshed)
      else returns .staleLease (some refreshed)

def run (r : MarkUnknownRequest) : RepoCall CheckoutCommandResult :=
  .read (.command r.claim.commandId) fun
    | none => returns .retryable none
    | some none => returns .notFound none
    | some (some current) =>
      if current.providerEffectStatus = .sessionAttached then
        returns .alreadyAttached (some current)
      else if r.isMarked current then returns .providerOutcomeUnknown (some current)
      else if current.commandVersion ≠ r.claim.commandVersion ∨ ¬ current.HeldBy r.claim then
        returns .staleLease (some current)
      else
        match positiveInteger current.accountFenceGeneration "account_fence_generation" with
        | .error failure => .ret (.error failure)
        | .ok generation =>
          .transact (r.operations generation) fun
            | true => returns .providerOutcomeUnknown (some (r.mark current))
            | false => r.refresh

end MarkUnknownRequest

def markProviderOutcomeUnknown (r : MarkUnknownRequest) : RepoCall CheckoutCommandResult :=
  match requireText r.nowIso "now_iso" 1 64 with
  | .error failure => .ret (.error failure)
  | .ok _ => r.run

/-! ## Releasing the guard -/

structure ReleaseRequest where
  command : Option CommandRow

/-- The command whose guard is to be released, as its caller holds it. -/
structure GuardRelease where
  commandId : String
  heldVersion : ℤ

namespace GuardRelease

/-- The command is still terminal at the version that was read. -/
def isTerminal (v : GuardRelease) (parent : String) (version : ℤ) (row : CommandRow) : Bool :=
  row.IsAt v.commandId parent version ∧ row.commandState.IsTerminal

def isGuard (v : GuardRelease) (parent : String) (guard : OpenGuardRow) : Bool :=
  guard.entityType = "checkout_open_guard" ∧ guard.schemaVersion = OPEN_GUARD_SCHEMA_VERSION ∧
    guard.parentId = parent ∧ guard.commandId = v.commandId

def operations (v : GuardRelease) (parent : String) (version : ℤ) : List (Write Key Row) := [
  .check (.command v.commandId) (Option.any (v.isTerminal parent version)),
  .delete (.openGuard parent) (Option.any (v.isGuard parent))]

/-- A guard that is gone has been released. -/
def refresh (parent : String) (current : CommandRow) : RepoCall CheckoutCommandResult :=
  .read (.openGuard parent) fun
    | none => returns .retryable none
    | some none => returns .released (some current)
    | some (some _) => returns .retryable (some current)

def run (v : GuardRelease) : RepoCall CheckoutCommandResult :=
  .read (.command v.commandId) fun
    | none => returns .retryable none
    | some none => returns .notFound none
    | some (some current) =>
      match current.integrity env v.commandId none none with
      | some refused => returns refused none
      | none =>
        if ¬ current.commandState.IsTerminal then returns .notTerminal (some current)
        else if v.heldVersion ≠ current.commandVersion then returns .staleVersion (some current)
        else
          match requireText current.parentId "parent_id" 1 200 with
          | .error failure => .ret (.error failure)
          | .ok parent =>
            .transact (v.operations parent current.commandVersion) fun
              | true => returns .released (some current)
              | false => refresh parent current

end GuardRelease

def releaseOpenGuardForTerminalCommand (r : ReleaseRequest) : RepoCall CheckoutCommandResult :=
  match r.command with
  | none => returns .notFound none
  | some command =>
    match requireText command.commandId "command_id" 1 200 with
    | .error failure => .ret (.error failure)
    | .ok commandId => (GuardRelease.mk commandId command.commandVersion).run env

/-! ## Expiring the session -/

/-- `_supersession_disposition` -/
def CommandRow.supersessionDisposition (command : CommandRow) :
    Option CheckoutSupersessionDisposition :=
  match command.expirationEffectStatus with
  | some .nonpayableProven => some .nonpayableProven
  | some .paymentReconciliationRequired => some .reconciliationRequired
  | some .expirationOutcomeUnknown => some .providerUnknown
  | some .expireClaimed => some .expirationBusy
  | some .notStarted => none
  | none => none

/-- How an integrity failure is reported for a plan change. -/
def refusedSupersession (refused : CheckoutCommandDisposition) : CheckoutSupersessionDisposition :=
  if refused = .identityMismatch then .identityMismatch else .malformed

structure ClaimExpirationRequest where
  command : Option CommandRow
  nowIso : String

/-- A command as its caller holds it, and the time of the change. -/
structure SessionExpiration where
  commandId : String
  parentId : String
  timestamp : String

namespace SessionExpiration

def claimExpiration (v : SessionExpiration) (version : ℤ) (row : CommandRow) : CommandRow :=
  { row with
    expirationEffectStatus := some .expireClaimed
    commandVersion := version + 1
    updatedAt := v.timestamp }

def claimCondition (v : SessionExpiration) (parent : String) (version : ℤ)
    (row : CommandRow) : Bool :=
  row.IsAt v.commandId parent version ∧ row.providerEffectStatus = .sessionAttached ∧
    (row.expirationEffectStatus = none ∨ row.expirationEffectStatus = some .notStarted) ∧
    row.supersededByCommandId = none

def claimOperations (v : SessionExpiration) (parent : String) (generation version : ℤ) :
    List (Write Key Row) :=
  fencedUpdate parent generation v.commandId (v.claimExpiration version)
    (v.claimCondition parent version)

def refreshClaim (v : SessionExpiration) : RepoCall CheckoutSupersessionResult :=
  .read (.command v.commandId) fun
    | none => concludes .retryable none
    | some none => concludes .retryable none
    | some (some refreshed) =>
      concludes (refreshed.supersessionDisposition.getD .staleVersion) (some refreshed)

def claimRun (v : SessionExpiration) : RepoCall CheckoutSupersessionResult :=
  .read (.command v.commandId) fun
    | none => concludes .retryable none
    | some none => concludes .notFound none
    | some (some current) =>
      match current.integrity env v.commandId (some v.parentId) none with
      | some refused => concludes (refusedSupersession refused) (some current)
      | none =>
        match current.supersessionDisposition with
        | some known => concludes known (some current)
        | none =>
          if current.providerEffectStatus ≠ .sessionAttached ∨
              current.providerSessionId.isNone then concludes .malformed (some current)
          else
            match requireText current.parentId "parent_id" 1 200,
              positiveInteger current.accountFenceGeneration "account_fence_generation" with
            | .error failure, _ => .ret (.error failure)
            | .ok _, .error failure => .ret (.error failure)
            | .ok parent, .ok generation =>
              .transact (v.claimOperations parent generation current.commandVersion) fun
                | true => concludes .expirationClaimed
                    (some (v.claimExpiration current.commandVersion current))
                | false => v.refreshClaim

end SessionExpiration

def claimSessionExpiration (r : ClaimExpirationRequest) : RepoCall CheckoutSupersessionResult :=
  match r.command with
  | none => concludes .notFound none
  | some command =>
    match requireText command.commandId "command_id" 1 200, requireText r.nowIso "now_iso" 1 64 with
    | .error failure, _ => .ret (.error failure)
    | .ok _, .error failure => .ret (.error failure)
    | .ok commandId, .ok timestamp =>
      (SessionExpiration.mk commandId command.parentId timestamp).claimRun env

/-- What the provider says about the session. -/
inductive SessionOutcome where
  | expired
  | complete
  | unknown
  deriving DecidableEq, Repr

namespace SessionOutcome

def ofText (text : String) : Except Failure SessionOutcome :=
  if text = "expired" then .ok .expired
  else if text = "complete" then .ok .complete
  else if text = "unknown" then .ok .unknown
  else .error (.valueError "provider_session_status is invalid")

def effectStatus : SessionOutcome → ExpirationEffectStatus
  | .expired => .nonpayableProven
  | .complete => .paymentReconciliationRequired
  | .unknown => .expirationOutcomeUnknown

def commandState : SessionOutcome → CheckoutCommandState
  | .expired => .terminalWithoutPayment
  | .complete => .reconciling
  | .unknown => .operatorAttentionRequired

def disposition : SessionOutcome → CheckoutSupersessionDisposition
  | .expired => .nonpayableProven
  | .complete => .reconciliationRequired
  | .unknown => .providerUnknown

end SessionOutcome

structure RecordExpirationRequest where
  command : Option CommandRow
  providerSessionStatus : String
  nowIso : String

namespace SessionExpiration

def record (v : SessionExpiration) (outcome : SessionOutcome) (version : ℤ) (row : CommandRow) :
    CommandRow :=
  { row with
    expirationEffectStatus := some outcome.effectStatus
    commandState := outcome.commandState
    commandVersion := version + 1
    updatedAt := v.timestamp }

def recordCondition (v : SessionExpiration) (parent : String) (version : ℤ)
    (effect : ExpirationEffectStatus) (row : CommandRow) : Bool :=
  row.IsAt v.commandId parent version ∧ row.providerEffectStatus = .sessionAttached ∧
    (row.expirationEffectStatus = some effect ∨
      (row.expirationEffectStatus = none ∧ effect = .notStarted)) ∧
    row.supersededByCommandId = none

def recordOperations (v : SessionExpiration) (outcome : SessionOutcome) (parent : String)
    (generation version : ℤ) (effect : ExpirationEffectStatus) : List (Write Key Row) :=
  fencedUpdate parent generation v.commandId (v.record outcome version)
    (v.recordCondition parent version effect)

def refreshRecord (v : SessionExpiration) : RepoCall CheckoutSupersessionResult :=
  .read (.command v.commandId) fun
    | none => concludes .retryable none
    | some none => concludes .staleVersion none
    | some (some refreshed) =>
      concludes (refreshed.supersessionDisposition.getD .staleVersion) (some refreshed)

def recordRun (v : SessionExpiration) (outcome : SessionOutcome) :
    RepoCall CheckoutSupersessionResult :=
  .read (.command v.commandId) fun
    | none => concludes .retryable none
    | some none => concludes .notFound none
    | some (some current) =>
      match current.integrity env v.commandId (some v.parentId) none with
      | some refused => concludes (refusedSupersession refused) (some current)
      | none =>
        let effect := current.expirationEffectStatus.getD .notStarted
        -- Anything settled is reported; a claimed expiration may be recorded.
        if effect ≠ .notStarted ∧ effect ≠ .expireClaimed then
          concludes (current.supersessionDisposition.getD .staleVersion) (some current)
        else if current.providerEffectStatus ≠ .sessionAttached then
          concludes .malformed (some current)
        else
          match requireText current.parentId "parent_id" 1 200,
            positiveInteger current.accountFenceGeneration "account_fence_generation" with
          | .error failure, _ => .ret (.error failure)
          | .ok _, .error failure => .ret (.error failure)
          | .ok parent, .ok generation =>
            .transact (v.recordOperations outcome parent generation current.commandVersion effect)
              fun
              | true => concludes outcome.disposition
                  (some (v.record outcome current.commandVersion current))
              | false => v.refreshRecord

end SessionExpiration

def recordSessionExpiration (r : RecordExpirationRequest) :
    RepoCall CheckoutSupersessionResult :=
  match r.command with
  | none => concludes .notFound none
  | some command =>
    match requireText r.providerSessionStatus "provider_session_status" 1 32 with
    | .error failure => .ret (.error failure)
    | .ok status =>
      match SessionOutcome.ofText status, requireText r.nowIso "now_iso" 1 64,
        requireText command.commandId "command_id" 1 200 with
      | .error failure, _, _ => .ret (.error failure)
      | .ok _, .error failure, _ => .ret (.error failure)
      | .ok _, .ok _, .error failure => .ret (.error failure)
      | .ok outcome, .ok timestamp, .ok commandId =>
        (SessionExpiration.mk commandId command.parentId timestamp).recordRun env outcome

/-! ## Plan changes -/

structure SupersedeRequest where
  oldCommand : Option CommandRow
  newIntent : CheckoutIntent
  priceId : String
  environment : String
  nowIso : String
  /-- What `_new_public_ref` draws. -/
  reference : String

/-- The checked arguments of `supersede_checkout_command`: the old command, and
what the new one is registered as. -/
structure Supersession where
  oldCommandId : String
  parentId : String
  registration : Registration

namespace Supersession

/-- The row of the old command is marked, its state stays. -/
def supersede (v : Supersession) (version : ℤ) (row : CommandRow) : CommandRow :=
  { row with
    supersededByCommandId := some v.registration.commandId
    supersededAt := some v.registration.timestamp
    commandVersion := version + 1
    updatedAt := v.registration.timestamp }

def oldCondition (v : Supersession) (version : ℤ) (row : CommandRow) : Bool :=
  row.IsAt v.oldCommandId v.parentId version ∧
    row.expirationEffectStatus = some .nonpayableProven ∧
    row.commandState = .terminalWithoutPayment ∧ row.supersededByCommandId = none

def transfer (v : Supersession) (guard : OpenGuardRow) : OpenGuardRow :=
  { guard with
    commandId := v.registration.commandId
    commandVersion := 1
    intentFingerprint := v.registration.fingerprint
    createdAt := v.registration.timestamp }

/-- The guard names the old command. -/
def IsOld (v : Supersession) (guard : OpenGuardRow) : Prop :=
  guard.entityType = "checkout_open_guard" ∧ guard.schemaVersion = OPEN_GUARD_SCHEMA_VERSION ∧
    guard.parentId = v.parentId ∧ guard.commandId = v.oldCommandId

instance (v : Supersession) (guard : OpenGuardRow) : Decidable (v.IsOld guard) :=
  inferInstanceAs (Decidable (_ ∧ _))

def guardCondition (v : Supersession) (guardVersion : ℤ) (guard : OpenGuardRow) : Bool :=
  v.IsOld guard ∧ guard.commandVersion = guardVersion

def operations (v : Supersession) (generation version guardVersion : ℤ) :
    List (Write Key Row) := [
  activeFence v.parentId generation,
  .modify (.command v.oldCommandId) (v.supersede version) (v.oldCondition version),
  .modify (.openGuard v.parentId) v.transfer (v.guardCondition guardVersion),
  .putNew (.command v.registration.commandId) (v.registration.command env generation),
  .putNew (.publicLookup v.registration.reference) (v.registration.lookup generation)]

/-- `_classify_supersession_replay` -/
def classify (v : Supersession) : RepoCall CheckoutSupersessionResult :=
  .read (.command v.oldCommandId) fun
    | none => concludes .retryable none
    | some old =>
      .read (.command v.registration.commandId) fun
        | none => concludes .retryable none
        | some new =>
          .read (.openGuard v.parentId) fun
            | none => concludes .retryable none
            | some guard =>
              if (old.any fun old => old.supersededByCommandId = some v.registration.commandId) ∧
                  (guard.any fun guard => guard.commandId = v.registration.commandId) ∧
                  (new.any fun new => new.integrity env v.registration.commandId (some v.parentId)
                    (some v.registration.fingerprint) = none) then
                concludes .superseded new
              else if old.any fun old => old.supersededByCommandId.isSome then
                concludes .identityMismatch old
              else concludes .retryable old

def run (v : Supersession) : RepoCall CheckoutSupersessionResult :=
  .read (.command v.oldCommandId) fun
    | none => concludes .retryable none
    | some current =>
      .read (.openGuard v.parentId) fun
        | none => concludes .retryable none
        | some guard =>
          match current with
          | none => concludes .notFound none
          | some current =>
            match current.integrity env v.oldCommandId (some v.parentId) none with
            | some refused => concludes (refusedSupersession refused) (some current)
            | none =>
              if current.supersededByCommandId.isSome then v.classify env
              else if current.expirationEffectStatus ≠ some .nonpayableProven ∨
                  current.commandState ≠ .terminalWithoutPayment then
                concludes (current.supersessionDisposition.getD .staleVersion) (some current)
              else
                match positiveInteger current.accountFenceGeneration "account_fence_generation",
                  guard.filter fun guard => v.IsOld guard with
                | .error failure, _ => .ret (.error failure)
                | .ok _, none => concludes .malformed (some current)
                | .ok generation, some guard =>
                  match positiveInteger guard.commandVersion "guard_command_version" with
                  | .error failure => .ret (.error failure)
                  | .ok guardVersion =>
                    .transact (v.operations env generation current.commandVersion guardVersion) fun
                      | true => concludes .superseded (some (v.registration.command env generation))
                      | false => v.classify env

end Supersession

/-- The new command, once its identity and its texts are checked. -/
def SupersedeRequest.registration (r : SupersedeRequest) : Except Failure Registration := do
  let timestamp ← requireText r.nowIso "now_iso" 1 64
  let commandId ← checkoutCommandId env r.newIntent.parentId.val r.newIntent.idempotencyKey.val
  if r.newIntent.commandId.val ≠ commandId then
    .error (.valueError "checkout command identity is invalid")
  else
    let fingerprint ← checkoutIntentFingerprint env r.newIntent r.priceId r.environment
    return {
      intent := r.newIntent
      commandId := commandId
      fingerprint := fingerprint
      priceId := r.priceId
      environment := lower r.environment
      reference := r.reference
      timestamp := timestamp }

def supersedeCheckoutCommand (r : SupersedeRequest) : RepoCall CheckoutSupersessionResult :=
  match r.oldCommand with
  | none => concludes .notFound none
  | some oldCommand =>
    match requireText oldCommand.commandId "command_id" 1 200,
      requireText oldCommand.parentId "parent_id" 1 200 with
    | .error failure, _ => .ret (.error failure)
    | .ok _, .error failure => .ret (.error failure)
    | .ok oldCommandId, .ok parentId =>
      if r.newIntent.parentId.val ≠ parentId ∨ r.newIntent.commandId.val = oldCommandId then
        concludes .identityMismatch none
      else
        match r.registration env with
        | .error failure => .ret (.error failure)
        | .ok registration => (Supersession.mk oldCommandId parentId registration).run env

end Stoa.Billing
