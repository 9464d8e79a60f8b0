import Stoa.Data.Document
import Stoa.Model.DeletionBranches
import Stoa.Model.Values
import Stoa.Store.Auxiliary

/-! # The command of an account deletion

A command keeps the result of every branch and a digest of all of them. A worker
claims it under a lease, renews the lease before each branch, stores what the
branch has done, and at last makes the command and the account fence terminal. -/

namespace Stoa.AccountDeletion

open RowStore

/-! ## Rows -/

inductive CommandStatus where
  | pending
  | running
  | complete
  deriving DecidableEq

/-- What the private-store seal says of one branch. -/
structure BranchContract where
  handlerVersion : String
  requiredRoots : List String
  subfamilies : List String
  deriving DecidableEq

/-- The request that asked for the deletion. -/
structure RequestIdentity where
  issuerHash : Option String := none
  subjectHash : Option String := none
  fingerprint : Option String := none
  method : Option String := none
  path : Option String := none
  requestBodySha256 : Option String := none

/-- The receipt of a deletion that is complete. -/
structure Receipt where
  commandId : String
  status : String
  completedAt : String

abbrev Results := OrderedDict String Document

structure CommandRow where
  commandId : String
  userId : String
  generation : ℤ
  status : CommandStatus
  acceptedAt : String
  updatedAt : Option String
  completedAt : Option String := none
  inventorySha256 : String
  branchIds : Option (List String)
  branchContracts : Option (List (String × BranchContract))
  version : ℤ
  commandVersion : Option ℤ
  leaseOwner : Option String := none
  leaseExpiresAt : Option ℤ := none
  branchResults : Option Results
  branchResultsDigest : Option String
  receipt : Option Receipt := none
  accountingIdentity : Option String := none
  externalReceipts : List Document := []
  evidenceReferences : List Document := []
  request : RequestIdentity := {}

inductive FenceStatus where
  | active
  | deletionPending
  | deleted
  deriving DecidableEq

structure FenceRow where
  userId : String
  status : FenceStatus
  generation : ℤ
  commandId : Option String
  inventorySha256 : Option String
  deletionAcceptedAt : Option String
  deletedAt : Option String
  updatedAt : Option String
  version : ℤ

inductive Key where
  | command (userId commandId : String)
  | fence (userId : String)
  deriving DecidableEq

abbrev Row : Key → Type
  | .command _ _ => CommandRow
  | .fence _ => FenceRow

/-- `AccountDeletionConflict`, its subclass `DeletionCommandClaimLost`, and
everything else that is raised. -/
inductive Raised where
  | conflict (message : String)
  | claimLost (message : String)
  | error
  deriving DecidableEq

abbrev Action := Handler Key Row Raised

/-- What the code takes from its libraries: SHA-256 of the UTF-8 form of a JSON
text, in hexadecimal digits, and what `datetime.fromisoformat` reads as a UTC
timestamp. -/
structure Library where
  sha256 : Json → String
  isTimestamp : String → Bool

variable (lib : Library)

/-- `branch_results_digest` -/
def branchResultsDigest (results : Results) : String :=
  lib.sha256 (Document.map results.entries).canonical

/-! ## Arguments -/

/-- `_required` -/
def required (value : Option String) (name : String) : Except Raised String :=
  let text := (value.map fun text => String.ofList (strip text.toList)).getD ""
  if text = "" then .error (.conflict (name ++ " is required")) else .ok text

/-- `_positive_int` -/
def positiveInt (value : Option ℤ) (field : String) : Except Raised ℤ :=
  match value with
  | some value => if 0 < value then .ok value else .error (.conflict ("invalid " ++ field))
  | none => .error (.conflict ("invalid " ++ field))

/-- `_valid_lifecycle_timestamp` -/
def validLifecycleTimestamp (value : String) : Except Raised String :=
  if lib.isTimestamp value then .ok value else .error (.conflict "invalid lifecycle timestamp")

/-- The key of a command; `deletion_command_key` strips both of its parts. -/
def deletionCommandKey (userId commandId : String) : Except Raised Key := do
  let userId ← required userId "user_id"
  let commandId ← required commandId "command_id"
  return .command userId commandId

/-! ## Claims -/

structure DeletionCommandClaim where
  commandId : String
  generation : ℤ
  leaseOwner : String
  leaseExpiresAt : ℤ
  commandVersion : ℤ
  branchResultsDigest : String

/-- `_claim_from_command` -/
def claimFromCommand (command : CommandRow) : Except Raised DeletionCommandClaim := do
  let owner ← required command.leaseOwner "lease_owner"
  let digest ← required command.branchResultsDigest "branch_results_digest"
  if digest.length ≠ 64 then throw (.conflict "invalid branch results digest")
  return {
    commandId := ← required command.commandId "command_id"
    generation := ← positiveInt command.generation "generation"
    leaseOwner := owner
    leaseExpiresAt := ← positiveInt command.leaseExpiresAt "lease expiry"
    commandVersion := ← positiveInt (some (command.commandVersion.getD command.version)) "command version"
    branchResultsDigest := digest }

/-- One branch, as the service runs it: the readings of its clock, and what the
handler returned, if it did not raise. -/
structure HandlerResult extends BranchResult where
  legalRetentionBlocked : ℤ := 0
  externalReceipts : List (List (String × Document)) := []

structure Turn where
  renewalEpoch : ℤ
  renewedAt : String
  outcome : Option HandlerResult
  updatedAt : String
  persistEpoch : ℤ

/-- A worker: the command that it was handed, its lease owner, and what its clock
and the branch handlers answer. -/
structure Worker where
  userId : String
  commandId : String
  generation : ℤ
  version : ℤ
  leaseOwner : String
  nowEpoch : ℤ
  leaseExpiresAt : ℤ
  now : String
  leaseSeconds : ℤ
  turn : String → Turn
  finalEpoch : ℤ
  completedAt : String

abbrev Worker.key (w : Worker) : Key := .command w.userId w.commandId

/-- The condition of a claim. -/
def CommandRow.claimable (command : CommandRow) (generation now : ℤ) : Bool :=
  command.generation = generation ∧ (command.status = .pending ∨
    command.status = .running ∧ command.leaseExpiresAt.any (· < now) = true)

def CommandRow.claimed (command : CommandRow) (owner : String) (leaseExpiresAt initialVersion : ℤ)
    (now : String) : CommandRow :=
  { command with
    status := .running
    leaseOwner := owner
    leaseExpiresAt := leaseExpiresAt
    updatedAt := now
    branchResults := command.branchResults.getD .empty
    branchResultsDigest := command.branchResultsDigest.getD (AccountDeletion.branchResultsDigest lib .empty)
    commandVersion := some (command.commandVersion.getD initialVersion + 1)
    version := command.version + 1 }

/-- `claim_deletion_command`. The update answers with the row as it has become,
so the row is read first, and written if it is still of the version that was
read. -/
def claimDeletionCommand (w : Worker) : Action (Option DeletionCommandClaim) := do
  let owner ← .of (required w.leaseOwner "lease_owner")
  let now ← .of (positiveInt w.nowEpoch "current epoch")
  let expiry ← .of (positiveInt w.leaseExpiresAt "lease expiry")
  let _ ← .of (if expiry ≤ now then
    .error (.conflict "lease must expire after current epoch") else .ok ())
  let nowIso ← .of (validLifecycleTimestamp lib w.now)
  let initial ← .of (positiveInt w.version "command version")
  match ← .get .error w.key with
  | none => return none
  | some (row : CommandRow) =>
      if row.claimable w.generation now then
        if ← .submit [.modify w.key (fun stored : CommandRow => stored.claimed lib owner expiry initial nowIso)
            fun stored : CommandRow => stored.claimable w.generation now &&
              stored.commandVersion == row.commandVersion] then
          return ← .of (claimFromCommand (row.claimed lib owner expiry initial nowIso))
        else throw (.conflict "deletion claim unavailable")
      else return none

/-! ## Reads -/

/-- A command as it was read, with the key that it was read from. -/
structure Command where
  owner : String
  id : String
  row : CommandRow

abbrev Command.key (command : Command) : Key := .command command.owner command.id

def isCommand : Key → Bool
  | .command _ _ => true
  | .fence _ => false

def commandOf (commandId : String) : ((k : Key) × Row k) → Option Command
  | ⟨.command owner id, row⟩ => if row.commandId = commandId then some ⟨owner, id, row⟩ else none
  | ⟨.fence _, _⟩ => none

/-- `get_command_by_id` -/
def getCommandById (commandId : String) : Action (Option Command) := do
  match (← .list .error isCommand).filterMap (commandOf commandId) with
  | [] => return none
  | [command] => return some command
  | _ => throw (.conflict "ambiguous deletion command")

/-- `_require_current_claim` -/
def requireCurrentClaim (command : CommandRow) (claim : DeletionCommandClaim) : Except Raised Unit :=
  if command.status = .running ∧ command.commandId = claim.commandId ∧
      command.generation = claim.generation ∧ command.leaseOwner = claim.leaseOwner ∧
      command.leaseExpiresAt = claim.leaseExpiresAt ∧
      command.commandVersion = claim.commandVersion ∧
      command.branchResultsDigest = claim.branchResultsDigest ∧
      branchResultsDigest lib (command.branchResults.getD .empty) = claim.branchResultsDigest then
    .ok ()
  else .error (.claimLost "deletion claim lost")

/-- `_load_command`, where a command that is gone or not claimed any more is raised. -/
def currentCommand (claim : DeletionCommandClaim) : Action Command := do
  match ← getCommandById claim.commandId with
  | none => throw (.claimLost "deletion command disappeared")
  | some command =>
      let _ ← .of (requireCurrentClaim lib command.row claim)
      return command

/-! ## Renewal -/

/-- What every write under a claim asks of the command. -/
def CommandRow.claimedBy (command : CommandRow) (claim : DeletionCommandClaim) (now : ℤ) : Bool :=
  command.status = .running ∧ command.generation = claim.generation ∧
    command.leaseOwner = claim.leaseOwner ∧ command.commandVersion = claim.commandVersion ∧
    command.branchResultsDigest = claim.branchResultsDigest ∧
    command.leaseExpiresAt.any (now ≤ ·) = true

def CommandRow.renewed (command : CommandRow) (leaseExpiresAt : ℤ) (now : String) : CommandRow :=
  { command with
    leaseExpiresAt := leaseExpiresAt
    updatedAt := now
    commandVersion := command.commandVersion.map (· + 1)
    version := command.version + 1 }

/-- `renew_deletion_command_claim` -/
def renewDeletionCommandClaim (command : Command) (claim : DeletionCommandClaim)
    (nowEpoch leaseExpiresAt : ℤ) (now : String) : Action DeletionCommandClaim := do
  let nowEpoch ← .of (positiveInt nowEpoch "current epoch")
  let expiry ← .of (positiveInt leaseExpiresAt "lease expiry")
  let _ ← .of (if expiry ≤ nowEpoch then
    .error (.conflict "lease must expire after current epoch") else .ok ())
  let now ← .of (validLifecycleTimestamp lib now)
  if ← .submit [.modify command.key (fun stored : CommandRow => stored.renewed expiry now)
      fun stored : CommandRow => stored.claimedBy claim nowEpoch] then
    return { claim with leaseExpiresAt := expiry, commandVersion := claim.commandVersion + 1 }
  else throw (.claimLost "deletion renewal lost")

/-! ## Results -/

def BranchStatus.text : BranchStatus → String
  | .complete => "complete"
  | .retryable => "retryable"
  | .conflict => "conflict"

def cursorDocument (cursor : Option Cursor) : Document :=
  (cursor.map fun cursor => .map (cursor.entries.map fun entry =>
    (entry.1, (entry.2.map Document.string).getD .null))).getD .null

def countsDocument (counts : Option (OrderedDict String ℕ)) : Document :=
  (counts.map fun counts => .map (counts.entries.map fun entry => (entry.1, .int entry.2))).getD .null

/-- `BranchResult.persisted` -/
def HandlerResult.persisted (result : HandlerResult) (updatedAt : String) (generation : ℤ)
    (contract : BranchContract) : OrderedDict String Document :=
  .ofPairs [("status", .string result.status.text),
    ("cursor", cursorDocument result.cursor),
    ("debt_counts", countsDocument result.debtCounts),
    ("quiescent", .bool result.quiescent),
    ("epoch", .int result.epoch),
    ("legal_retention_blocked", .int result.legalRetentionBlocked),
    ("external_receipts", .list (result.externalReceipts.map .map)),
    ("updated_at", .string updatedAt),
    ("generation", .int generation),
    ("handler_version", .string contract.handlerVersion),
    ("subfamilies", .list (contract.subfamilies.map .string))]

/-- What becomes of a branch whose handler raises. -/
def dependencyDebt : HandlerResult :=
  { status := .retryable, debtCounts := some (.ofPairs [("dependency", 1)]) }

/-- What is stored of a result. -/
def RESULT_FIELDS : List String :=
  ["status", "cursor", "debt_counts", "quiescent", "epoch", "generation", "handler_version",
    "subfamilies", "legal_retention_blocked", "external_receipts", "updated_at"]

/-- The version of a stored result; a branch without one is at version 0. -/
def resultVersion (previous : Document) : Option ℤ :=
  ((previous.get? "result_version").getD (.int 0)).storedInt

def safeResult (result : OrderedDict String Document) (updatedAt : String) (version : ℤ) :
    OrderedDict String Document :=
  ((OrderedDict.ofPairs (result.entries.filter fun entry => entry.1 ∈ RESULT_FIELDS)).insert "updated_at"
    (.string updatedAt)).insert "result_version" (.int version)

/-- What `previous or {}` is. -/
def priorResult (results : Results) (branchId : String) : Document :=
  match results.get? branchId with
  | some (.map entries) => .map entries
  | some value => value
  | none => .map []

/-- Every result is a mapping; `dict(value)` of anything else is raised. -/
def copiedResults (results : Results) : Except Raised Results :=
  if results.entries.all fun entry => entry.2.entries?.isSome then .ok results else .error .error

/-- The condition on the result that is replaced. -/
def CommandRow.atResultVersion (command : CommandRow) (branchId : String) (expected : ℤ) : Bool :=
  match command.branchResults with
  | none => false
  | some results =>
      if expected = 0 then (results.get? branchId).isNone
      else ((results.get? branchId).bind fun value => value.get? "result_version").any fun version =>
        version.number? = some (expected : ℚ)

def CommandRow.recorded (command : CommandRow) (branchId : String) (result : Document) (digest now : String) :
    CommandRow :=
  { command with
    branchResults := command.branchResults.map fun results => results.insert branchId result.stored
    updatedAt := now
    branchResultsDigest := digest
    commandVersion := command.commandVersion.map (· + 1)
    version := command.version + 1 }

/-- `persist_branch_result` -/
def persistBranchResult (command : Command) (branchId : String) (result : OrderedDict String Document)
    (updatedAt : String) (claim : DeletionCommandClaim) (expectedBranchResultsDigest : String)
    (nowEpoch expectedResultVersion : ℤ) : Action DeletionCommandClaim := do
  let _ ← .of (if expectedBranchResultsDigest ≠ claim.branchResultsDigest then
    .error (.claimLost "branch result digest changed") else .ok ())
  let nowEpoch ← .of (positiveInt nowEpoch "current epoch")
  let updatedAt ← .of (validLifecycleTimestamp lib updatedAt)
  let currentResults := command.row.branchResults.getD .empty
  let _ ← .of (if branchResultsDigest lib currentResults ≠ expectedBranchResultsDigest then
    .error (.claimLost "durable branch proof changed") else .ok ())
  let previous := priorResult currentResults branchId
  let _ ← .of (if previous.entries?.isNone then
    .error (.conflict "invalid prior branch result") else .ok ())
  let prior ← .of (match resultVersion previous with
    | none => .error (.conflict "invalid branch result version")
    | some prior => if prior < 0 then .error (.conflict "invalid branch result version") else .ok prior)
  let _ ← .of (if expectedResultVersion ≠ prior then
    .error (.claimLost "branch result version changed") else .ok ())
  let safe := Document.map (safeResult result updatedAt (prior + 1)).entries
  let copied ← .of (copiedResults currentResults)
  let nextDigest := branchResultsDigest lib (copied.insert branchId safe)
  if ← .submit [.modify command.key
      (fun stored : CommandRow => stored.recorded branchId safe nextDigest updatedAt)
      fun stored : CommandRow => stored.claimedBy { claim with
          branchResultsDigest := expectedBranchResultsDigest } nowEpoch &&
        stored.atResultVersion branchId expectedResultVersion] then
    return { claim with
      commandVersion := claim.commandVersion + 1
      branchResultsDigest := nextDigest }
  else throw (.claimLost "branch result claim lost")

/-! ## The seal -/

/-- The private-store inventory that the service was started with. -/
structure Seal where
  inventorySha256 : String
  branches : List String
  branchContracts : List (String × BranchContract)

def ACCOUNT_DELETION_BRANCH_IDS : List String :=
  ["account_profile", "identity_cross_account", "capability_scope", "question_ocr_session", "attachments",
    "moderation", "report_records", "report_artifacts", "support_recovery_feed", "conversation_messages",
    "practice_progress", "adaptive_assignment", "learning_memory", "ai_teacher_draft", "curriculum_signal",
    "notification_device_realtime", "external_delivery_debt"]

def NONBLOCKING_DEBT : List String :=
  ["external_accepted", "external_delivered", "external_unknown", "processed", "pass_dirty"]

def debtEntryIsZero (entry : String × Document) : Bool :=
  match entry.2.storedInt with
  | none => false
  | some count => 0 ≤ count ∧ (entry.1 ∉ NONBLOCKING_DEBT → count = 0) ∧
      (entry.1 = "pass_dirty" → count = 0)

/-- `_result_debt_is_zero` -/
def resultDebtIsZero (result : Document) : Bool :=
  match result.get? "debt_counts" with
  | none => true
  | some .null => true
  | some (.map entries) => entries.all debtEntryIsZero
  | some _ => false

def RECEIPT_STATUSES : List String := ["accepted", "delivered", "provider_acceptance_unknown"]

def OUTSIDE_PURGE : String := "outside_backend_purge_authority"

def receiptIsSettled (receipt : Document) : Bool :=
  receipt.entries?.isSome &&
    ((receipt.get? "status").bind Document.text?).any (· ∈ RECEIPT_STATUSES) &&
    ((receipt.get? "claim").getD (.string OUTSIDE_PURGE)).text? = some OUTSIDE_PURGE

/-- A cursor that is missing, or leads nowhere. -/
def cursorIsBlank : Option Document → Bool
  | none => true
  | some .null => true
  | some (.map []) => true
  | some _ => false

/-- The stored proof of one branch says that it is complete and owes nothing. -/
def resultIsSealed (result : Document) (generation : ℤ) (contract : BranchContract) : Bool :=
  result.entries?.isSome &&
  ((result.get? "status").bind Document.text? = some "complete") &&
  ((result.get? "quiescent").any fun value => value matches .bool true) &&
  ((result.get? "epoch").bind Document.storedInt).any (2 ≤ ·) &&
  ((result.get? "generation").bind Document.number? = some (generation : ℚ)) &&
  ((result.get? "handler_version").bind Document.text? = some contract.handlerVersion) &&
  ((result.get? "subfamilies").bind Document.texts? = some contract.subfamilies) &&
  cursorIsBlank (result.get? "cursor") &&
  (((result.get? "legal_retention_blocked").getD (.int 0)).number? = some 0) &&
  resultDebtIsZero result &&
  (((result.get? "external_receipts").getD (.list [])).items?.any fun receipts =>
    receipts.all receiptIsSettled)

/-- `validate_deletion_seal` -/
def validateDeletionSeal (command : CommandRow) (fence : FenceRow) (inventory : Seal) : Bool :=
  match command.branchResults with
  | none => false
  | some results =>
      0 < command.generation ∧ (command.status = .running ∨ command.status = .pending) ∧
        command.inventorySha256 = inventory.inventorySha256 ∧
        command.branchIds = some ACCOUNT_DELETION_BRANCH_IDS ∧
        command.branchContracts = some inventory.branchContracts ∧
        fence.status = .deletionPending ∧ fence.generation = command.generation ∧
        fence.commandId = some command.commandId ∧
        (∀ branchId ∈ results.keys, branchId ∈ ACCOUNT_DELETION_BRANCH_IDS) ∧
        (∀ branchId ∈ ACCOUNT_DELETION_BRANCH_IDS, branchId ∈ results.keys) ∧
        inventory.branches.all fun branchId =>
          (results.get? branchId).any fun result =>
            (inventory.branchContracts.lookup branchId).any fun contract =>
              resultIsSealed result command.generation contract

/-! ## The end -/

/-- What is kept of a delivery receipt. -/
def minimalReceipt (receipt : List (String × Document)) : Document :=
  .map (["channel", "status", "count", "claim"].filterMap fun name =>
    (receipt.lookup name).map fun value => (name, value))

def minimalReceipts (result : Document) : List Document :=
  (((result.get? "external_receipts").bind Document.items?).getD []).filterMap fun receipt =>
    receipt.entries?.map minimalReceipt

def terminalCommand (command : CommandRow) (userId commandId : String) (generation commandVersion : ℤ)
    (inventory : Seal) (receipts : List Document) (now : String) : CommandRow where
  commandId := commandId
  userId := userId
  generation := generation
  status := .complete
  acceptedAt := command.acceptedAt
  updatedAt := none
  completedAt := now
  inventorySha256 := inventory.inventorySha256
  branchIds := none
  branchContracts := none
  version := command.version + 1
  commandVersion := some (commandVersion + 1)
  branchResults := none
  branchResultsDigest := command.branchResultsDigest
  receipt := some ⟨commandId, "deleted", now⟩
  accountingIdentity := some ((command.accountingIdentity.filter (· ≠ "")).getD
    ("DELETE_ACCOUNTING#" ++ commandId))
  externalReceipts := receipts
  evidenceReferences := command.evidenceReferences
  request := command.request

def terminalFence (fence : FenceRow) (command : CommandRow) (userId commandId : String) (generation : ℤ)
    (inventory : Seal) (now : String) : FenceRow where
  userId := userId
  status := .deleted
  generation := generation
  commandId := commandId
  inventorySha256 := inventory.inventorySha256
  deletionAcceptedAt := some ((fence.deletionAcceptedAt.filter (· ≠ "")).getD command.acceptedAt)
  deletedAt := now
  updatedAt := now
  version := fence.version + 1

/-- `get_deletion_command` -/
def getDeletionCommand (userId commandId : String) : Action (Option Command) := do
  let userId ← .of (required userId "user_id")
  let commandId ← .of (required commandId "command_id")
  return (← Handler.get .error (.command userId commandId)).map fun row => ⟨userId, commandId, row⟩

/-- A fence as it was read, with the user under whose key it is stored. -/
structure Fence where
  owner : String
  row : FenceRow

/-- `get_account_fence` -/
def getAccountFence (userId : String) : Action (Option Fence) := do
  let userId ← .of (required userId "user_id")
  return (← Handler.get .error (.fence userId)).map fun row => ⟨userId, row⟩

/-- The command and the fence are terminal already, by the same seal. -/
def isReplay (command : CommandRow) (fence : FenceRow) (commandId : String) (inventory : Seal) : Bool :=
  command.status = .complete ∧ fence.status = .deleted ∧ command.inventorySha256 = inventory.inventorySha256 ∧
    command.commandId = commandId ∧ fence.commandId = some commandId

/-- What a refused transaction is answered with: the rows, where they are terminal. -/
def replayTerminal (userId commandId : String) (inventory : Seal) (durableDigest : Option String) :
    Action (CommandRow × FenceRow) := do
  match ← getDeletionCommand userId commandId, ← getAccountFence userId with
  | some command, some fence =>
      if isReplay command.row fence.row commandId inventory ∧
          command.row.branchResultsDigest = durableDigest then
        return (command.row, fence.row)
      else throw (.conflict "conditional account lifecycle conflict")
  | _, _ => throw (.conflict "conditional account lifecycle conflict")

/-- What the worker still has to hold when it finishes. -/
def holdsTerminal (command : CommandRow) (claim : DeletionCommandClaim) (now : ℤ) : Bool :=
  command.branchResults.any (fun results => branchResultsDigest lib results = claim.branchResultsDigest) ∧
    command.branchResultsDigest = claim.branchResultsDigest ∧ command.commandId = claim.commandId ∧
    command.generation = claim.generation ∧ command.leaseOwner = claim.leaseOwner ∧
    command.commandVersion = claim.commandVersion ∧ command.leaseExpiresAt.any (now ≤ ·) = true

/-- `finalize_account_deletion` -/
def finalizeAccountDeletion (command : Command) (fence : Fence) (inventory : Seal)
    (claim : DeletionCommandClaim) (nowEpoch : ℤ) (now : String) : Action (CommandRow × FenceRow) := do
  let now ← .of (validLifecycleTimestamp lib now)
  let nowEpoch ← .of (positiveInt nowEpoch "current epoch")
  if command.row.status = .complete ∧ fence.row.status = .deleted ∧
      fence.row.commandId = some command.row.commandId ∧ command.row.generation = fence.row.generation ∧
      command.row.inventorySha256 = inventory.inventorySha256 then
    return (command.row, fence.row)
  else
    match ← getDeletionCommand command.row.userId command.row.commandId with
    | none => throw (.claimLost "deletion command disappeared")
    | some command =>
        let _ ← .of (if holdsTerminal lib command.row claim nowEpoch then .ok ()
          else .error (.claimLost "terminal deletion claim lost"))
        let _ ← .of (if validateDeletionSeal command.row fence.row inventory then .ok ()
          else .error (.conflict "account deletion seal is incomplete"))
        let userId ← .of (required command.row.userId "user_id")
        let commandId ← .of (required command.row.commandId "command_id")
        let commandVersion ← .of (match command.row.commandVersion with
          | some version => if 0 < command.row.generation ∧ 0 < version ∧ 0 < command.row.version ∧
              0 < fence.row.version then .ok version
            else .error (.conflict "invalid terminal lifecycle version")
          | none => .error (.conflict "invalid terminal lifecycle version"))
        let receipts := minimalReceipts
          (((command.row.branchResults.getD .empty).get? "external_delivery_debt").getD .null)
        let terminal := terminalCommand command.row userId commandId command.row.generation commandVersion
          inventory receipts now
        let deleted := terminalFence fence.row command.row userId commandId command.row.generation inventory now
        if ← .submit [
            .put command.key terminal fun stored => stored.any fun stored : CommandRow =>
              stored.claimedBy { claim with
                generation := command.row.generation
                commandVersion := commandVersion } nowEpoch &&
              stored.inventorySha256 = inventory.inventorySha256,
            .put (.fence fence.owner) deleted fun stored => stored.any fun stored : FenceRow =>
              stored.status = .deletionPending ∧ stored.generation = command.row.generation ∧
                stored.version = fence.row.version ∧ stored.commandId = some commandId] then
          return (terminal, deleted)
        else replayTerminal userId commandId inventory command.row.branchResultsDigest

/-! ## The worker -/

/-- The branch is complete and found nothing more. -/
def isSettled (previous : Document) : Bool :=
  ((previous.get? "status").bind Document.text? = some "complete") &&
    ((previous.get? "quiescent").any fun value => value matches .bool true)

/-- One branch after the other, under a claim that each write replaces. -/
def continueBranches (inventory : Seal) (w : Worker) :
    List String → DeletionCommandClaim → Action DeletionCommandClaim
  | [], claim => return claim
  | branchId :: rest, claim => do
      let command ← currentCommand lib claim
      let previous := priorResult (command.row.branchResults.getD .empty) branchId
      if isSettled previous then
        continueBranches inventory w rest claim
      else
        let turn := w.turn branchId
        let claim ← renewDeletionCommandClaim lib command claim turn.renewalEpoch
          (turn.renewalEpoch + w.leaseSeconds) turn.renewedAt
        let command ← currentCommand lib claim
        let contract ← .of (match inventory.branchContracts.lookup branchId with
          | some contract => .ok contract
          | none => .error .error)
        let persisted := (turn.outcome.getD dependencyDebt).persisted turn.updatedAt
          command.row.generation contract
        let claim ← persistBranchResult lib command branchId persisted turn.updatedAt claim
          claim.branchResultsDigest turn.persistEpoch ((resultVersion previous).getD 0)
        continueBranches inventory w rest claim

/-- `AccountDeletionService.continue_command` -/
def continueCommand (inventory : Seal) (w : Worker) (claim : DeletionCommandClaim) : Action Unit := do
  match ← getCommandById claim.commandId with
  | none => throw (.claimLost "deletion command disappeared")
  | some command =>
      if command.row.status = .complete then
        return ()
      else
        let _ ← .of (requireCurrentClaim lib command.row claim)
        let _ ← .of (if command.row.inventorySha256 = inventory.inventorySha256 ∧
            command.row.branchIds = some ACCOUNT_DELETION_BRANCH_IDS ∧
            command.row.branchContracts = some inventory.branchContracts then .ok ()
          else .error (.conflict "deletion command seal drift"))
        let claim ← continueBranches lib inventory w ACCOUNT_DELETION_BRANCH_IDS claim
        let command ← currentCommand lib claim
        match ← getAccountFence command.row.userId with
        | none => return ()
        | some fence =>
            if validateDeletionSeal command.row fence.row inventory then
              let _ ← finalizeAccountDeletion lib command fence inventory claim w.finalEpoch w.completedAt
              return ()
            else return ()

/-- A worker claims the command, and goes on with it if it was given the claim. -/
def runWorker (inventory : Seal) (w : Worker) : Action Unit := do
  match ← claimDeletionCommand lib w with
  | none => return ()
  | some claim => continueCommand lib inventory w claim

/-! ## Service -/

/-- A text that `_required` leaves as it is. -/
def Trimmed (text : String) : Prop := text ≠ "" ∧ String.ofList (strip text.toList) = text

/-- The command as `begin_account_deletion` writes it. -/
structure CommandRow.Begun (userId commandId : String) (row : CommandRow) : Prop where
  ids : row.userId = userId ∧ row.commandId = commandId
  trimmed : Trimmed userId ∧ Trimmed commandId
  status : row.status = .pending
  version : row.version = 1
  commandVersion : row.commandVersion = some 1
  branchResults : row.branchResults = some .empty
  digest : row.branchResultsDigest = some (AccountDeletion.branchResultsDigest lib .empty)

/-- What other code may write: it accepts a deletion, and has its way with an
account whose deletion was not accepted. -/
structure OtherWrites (t t' : Table Key Row) : Prop where
  command : ∀ userId commandId row, t.row (.command userId commandId) = some row →
    t'.row (.command userId commandId) = some row
  begun : ∀ userId commandId row, t.row (.command userId commandId) = none →
    t'.row (.command userId commandId) = some row → CommandRow.Begun lib userId commandId row
  fence : ∀ userId (row : FenceRow), t.row (.fence userId) = some row → row.status ≠ .active →
    t'.row (.fence userId) = some row
  deleted : ∀ userId (row : FenceRow), t'.row (.fence userId) = some row → row.status = .deleted →
    t.row (.fence userId) = some row

/-- Any number of workers, whatever their clocks show and the branches do. Every
read and every write may fail, and a write may commit and then be reported to have
failed. -/
def deletionService (inventory : Seal) : Service Key Row Worker (Except Raised Unit) where
  body w := (runWorker lib inventory w).run
  mayStart := fun _ _ => True
  drift := OtherWrites lib
  faults := ⟨True, True, True⟩

end Stoa.AccountDeletion
