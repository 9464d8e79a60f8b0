import Stoa.Model.Allowance
import Stoa.Store.Handler

/-! # Message commands

A question is kept as one command row while it is answered. Requests, workers and
the sweep move it on, each with one conditional write on what it expects to find.
Epochs are seconds; the other times are instants. -/

namespace Stoa.AskQuestion

open RowStore

/-! ## Rows -/

inductive CommandStatus where
  | claimed
  | messageCommitted
  | aiRunning
  | completed
  | rejected
  | failed
  | terminalFailed
  | expired
  deriving DecidableEq, Repr

/-- What an answer is generated from besides the message. -/
structure GenerationContext where
  locale : String
  subject : String
  grade : String
  memoryContext : Option String
  practiceContext : Option String
  deriving DecidableEq

/-- What one paid reply cost. -/
structure UsageEvidence where
  effectId : String
  evidenceId : String
  requestIdDigest : String
  modelIdDigest : String
  inputTokens : ℤ
  outputTokens : ℤ
  deriving DecidableEq

structure AskAnswer where
  content : String
  structured : String
  targetUnitId : Option String
  knowledgeGaps : List String
  askedPoints : List (String × Option String)
  deriving DecidableEq

/-- The text `provider_result_json`, as what is encoded in it. -/
structure KeptResult where
  answer : AskAnswer
  allowance : Option UsageEvidence
  deriving DecidableEq

/-- The text `result_json`, as what is encoded in it. -/
structure MessageResult where
  conversationId : String
  studentMessageId : String
  assistantMessageId : String
  content : String
  allowance : Option UsageEvidence
  deriving DecidableEq

/-- The fields under which an answer is charged. -/
structure AllowanceIdentity where
  effectId : String
  planId : String
  grantId : String
  version : ℤ
  weekIdentity : String
  deriving DecidableEq

/-- What a command says from the moment it is claimed. -/
structure CommandIdentity where
  commandId : String
  conversationId : String
  ownerId : String
  idempotencyKey : String
  fingerprint : String
  accountFenceGeneration : ℤ
  studentMessageId : String
  assistantMessageId : String
  usageAction : String
  usageResourceId : String
  usageIdempotencyKey : String
  usageEventId : String
  quotaPeriod : String
  counterValue : ℕ
  createdAt : Instant
  /-- `expires_at`, when the row itself expires. -/
  rowExpiresAt : ℕ
  allowance : AllowanceIdentity
  generationContext : Option GenerationContext
  deriving DecidableEq

structure CommandRow extends CommandIdentity where
  entityType : String
  schemaVersion : String
  status : CommandStatus
  attempt : ℕ
  messageCommittedAt : Option Instant := none
  leaseOwner : Option String := none
  claimedAt : Option ℕ := none
  /-- `expiresAt`, when the lease runs out. -/
  expiresAt : Option ℕ := none
  failureCategory : Option String := none
  failureRetryable : Option Bool := none
  failedAt : Option Instant := none
  providerInvokedAttempt : Option ℕ := none
  providerResultAttempt : Option ℕ := none
  providerResultJson : Option KeptResult := none
  resultJson : Option MessageResult := none
  completedAt : Option Instant := none
  errorCode : Option String := none
  rejectedAt : Option Instant := none
  terminalAt : Option Instant := none
  allowanceSettledAt : Option Instant := none
  deriving DecidableEq

structure ChatQuotaRow where
  count : ℕ
  expiresAt : Option ℕ
  deriving DecidableEq

structure ChatQuotaOperationRow where
  commandId : String
  ownerId : String
  quotaPeriod : String
  counterValue : ℕ
  createdAt : Instant
  expiresAt : ℕ
  deriving DecidableEq

structure UsageEventRow where
  eventId : String
  actorId : String
  action : String
  quotaPeriod : String
  counterValueAfter : ℕ
  idempotencyKey : String
  requestCorrelationId : String
  conversationId : String
  createdAt : Instant
  updatedAt : Instant
  expiresAt : ℕ
  deriving DecidableEq

structure MessageRow where
  conversationId : String
  messageId : String
  ownerId : String
  accountFenceGeneration : ℤ
  role : String
  content : String
  createdAt : Instant
  structured : Option String := none
  targetUnitId : Option String := none
  allowance : Option UsageEvidence := none
  deriving DecidableEq

structure KnowledgeGapRow where
  subject : String
  name : String
  count : ℕ
  firstSeenAt : Instant
  lastSeenAt : Instant
  deriving DecidableEq

structure AskedKnowledgeRow where
  ownerId : String
  subject : String
  knowledgePoints : List String
  unitIds : List String
  createdAt : Instant
  deriving DecidableEq

/-- What the provider was asked under one lease. -/
structure InvocationRow where
  conversationId : String
  idempotencyKey : String
  attempt : ℕ
  deriving DecidableEq

inductive Key where
  | command (conversationId idempotencyKey : String)
  | chatQuota (ownerId quotaPeriod : String)
  | chatQuotaOperation (ownerId commandId : String)
  | usageEvent (ownerId action quotaPeriod idempotencyKey : String)
  | message (conversationId messageId : String)
  | attachment (attachmentId : String)
  | knowledgeGap (subject name : String)
  | askedKnowledge (conversationId messageId : String)
  | accountFence (ownerId : String)
  | counter (beneficiary : Text) (week : String)
  | effect (beneficiary : Text) (effect : Sha256)
  | providerUsage (beneficiary : Text) (evidence : Sha256)
  /-- Not a row of the table: the model calls, by the lease they were made under. -/
  | invocation (leaseOwner : String)
  deriving DecidableEq

abbrev Row : Key → Type
  | .command _ _ => CommandRow
  | .chatQuota _ _ => ChatQuotaRow
  | .chatQuotaOperation _ _ => ChatQuotaOperationRow
  | .usageEvent _ _ _ _ => UsageEventRow
  | .message _ _ => MessageRow
  | .attachment _ => String
  | .knowledgeGap _ _ => KnowledgeGapRow
  | .askedKnowledge _ _ => AskedKnowledgeRow
  | .accountFence _ => FenceRow
  | .counter b w => Allowance.Row (.counter b w)
  | .effect b e => Allowance.Row (.effect b e)
  | .providerUsage b e => Allowance.Row (.providerUsage b e)
  | .invocation _ => InvocationRow

/-! ## What is read off a command -/

def MESSAGE_AI_MAX_ATTEMPTS : ℕ := 3

def failedCommandCanRetry (command : CommandRow) (maxAttempts : ℕ) : Bool :=
  command.failureRetryable = some true ∧ command.attempt < maxAttempts

/-- The attempt that called the model and stored its answer on the command. -/
def keptAnswerAttempt (command : CommandRow) : Option ℕ :=
  match command.providerResultAttempt with
  | none => none
  | some attempt =>
    if some attempt ≠ command.providerInvokedAttempt ∨ command.providerResultJson.isNone then none
    else some attempt

inductive Disposition where
  | claimed
  | resume
  | completed
  | rejected
  | quotaExceeded
  | idempotencyConflict
  | retryable
  | leaseHeld
  | terminal
  | expired
  | missing
  deriving DecidableEq, Repr

structure MessageCommandResult where
  disposition : Disposition
  command : Option CommandRow := none
  counterValue : Option ℕ := none
  errorCode : Option String := none
  attempt : Option ℕ := none
  previousStatus : Option CommandStatus := none

/-- The named state of a command whose identity has been checked. -/
def CommandRow.disposition (command : CommandRow) (nowEpoch : ℕ) : Disposition :=
  match command.status with
  | .claimed => if command.rowExpiresAt ≤ nowEpoch then .expired else .claimed
  | .messageCommitted => .resume
  | .aiRunning => if command.expiresAt.any (· ≤ nowEpoch) then .resume else .leaseHeld
  | .completed => if command.resultJson.isSome then .completed else .retryable
  | .rejected => .rejected
  | .terminalFailed => .terminal
  | .failed =>
    if failedCommandCanRetry command MESSAGE_AI_MAX_ATTEMPTS then .resume else .terminal
  | .expired => .expired

def classifyMessageCommand (command : Option CommandRow) (ownerId fingerprint : String)
    (nowEpoch : ℕ) : MessageCommandResult :=
  match command with
  | none => { disposition := .missing }
  | some command =>
    if command.ownerId ≠ ownerId then { disposition := .missing }
    else if command.fingerprint ≠ fingerprint then
      { disposition := .idempotencyConflict, command := some command }
    else if command.entityType ≠ "message_command" ∨ command.schemaVersion ≠ "message-command.v2" then
      { disposition := .retryable, command := some command }
    else {
      disposition := command.disposition nowEpoch
      command := some command
      counterValue := some command.counterValue
      errorCode := command.errorCode
      attempt := some command.attempt }

/-! ## Access -/

/-- What is raised here and by the callers. -/
inductive Raised where
  /-- `AttachmentRepositoryConflict` -/
  | repositoryConflict (category : String)
  /-- `AttachmentTransactionError`, by its outcome. -/
  | transactionError (outcome : String)
  /-- `AttachmentDecisionError`, by its code. -/
  | decision (code : String)
  /-- `AdmissionError`, by its code. -/
  | admission (code : String)
  /-- Anything else. -/
  | other
  deriving DecidableEq

abbrev Handler (α : Type) := RowStore.Handler Key Row Raised α

/-- The first computation, or what follows from what it raised. -/
def attemptOr {α : Type} (x : Handler α) (f : Raised → Handler α) : Handler α := tryCatch x f

/-- Whether the refusal of a write is reported as a condition that failed. -/
abbrev Conditional := Bool

/-- The update of a command row, with the condition it is made under. -/
structure Update where
  change : CommandRow → CommandRow
  condition : CommandRow → Bool

def Update.write (u : Update) (conversationId idempotencyKey : String) : Write Key Row :=
  .modify (.command conversationId idempotencyKey) u.change u.condition

/-- `_update_item` with what its callers make of a `ClientError`. -/
def updateCommand (conversationId idempotencyKey : String) (u : Update) (conditional : Conditional) :
    Handler Bool := do
  if ← RowStore.Handler.submit [u.write conversationId idempotencyKey] then return true
  else if conditional then return false
  else throw (.repositoryConflict "dependency_failure")

def getMessageCommand (conversationId idempotencyKey : String) : Handler (Option CommandRow) :=
  RowStore.Handler.get Raised.other (Key.command conversationId idempotencyKey)

def readMessageCommandResult (conversationId idempotencyKey ownerId fingerprint : String)
    (nowEpoch : ℕ) : Handler MessageCommandResult := do
  let command ← attemptOr (getMessageCommand conversationId idempotencyKey) fun _ =>
    throw (.repositoryConflict "dependency_failure")
  return classifyMessageCommand command ownerId fingerprint nowEpoch

def fenceCheck (ownerId : String) (generation : ℤ) : Write Key Row :=
  .check (.accountFence ownerId) (activeFenceCondition (some generation))

/-! ## Claiming a command -/

/-- The arguments of `claim_message_command_and_quota`. The command is stored as
it is claimed: waiting, and not tried yet. -/
structure ClaimCommand where
  command : CommandIdentity
  limit : ℕ
  conditional : Conditional

namespace ClaimCommand

variable (r : ClaimCommand)

def item (expectedCounter : ℕ) : CommandRow where
  toCommandIdentity := { r.command with counterValue := expectedCounter + 1 }
  entityType := "message_command"
  schemaVersion := "message-command.v2"
  status := .claimed
  attempt := 0

def quotaOperation (expectedCounter : ℕ) : ChatQuotaOperationRow where
  commandId := r.command.commandId
  ownerId := r.command.ownerId
  quotaPeriod := r.command.quotaPeriod
  counterValue := expectedCounter + 1
  createdAt := r.command.createdAt
  expiresAt := r.command.rowExpiresAt

/-- `build_message_command_claim_transaction` -/
def operations (expectedCounter : ℕ) : List (Write Key Row) := [
  fenceCheck r.command.ownerId r.command.accountFenceGeneration,
  .putNew (.command r.command.conversationId r.command.idempotencyKey) (r.item expectedCounter),
  .putNew (.chatQuotaOperation r.command.ownerId r.command.commandId)
    (r.quotaOperation expectedCounter),
  .update (.chatQuota r.command.ownerId r.command.quotaPeriod)
    (fun stored => {
      count := expectedCounter + 1
      expiresAt := (stored.bind ChatQuotaRow.expiresAt).or (some r.command.rowExpiresAt) })
    fun stored =>
      match stored with
      | none => expectedCounter = 0
      | some counter => counter.count = expectedCounter]

def read : Handler MessageCommandResult :=
  readMessageCommandResult r.command.conversationId r.command.idempotencyKey r.command.ownerId
    r.command.fingerprint (r.command.rowExpiresAt - 172800)

/-- What another request has stored in the meantime, if it has. -/
def raced : Handler (Option MessageCommandResult) := do
  let raced ← r.read
  if raced.disposition = .missing then return none
  else if raced.disposition = .claimed then return some {
    disposition := .resume
    command := raced.command
    counterValue := raced.counterValue
    attempt := raced.attempt }
  else return some raced

/-- One round of the loop, or the counter that was read when it lost a race. -/
def round : Handler (ℕ ⊕ MessageCommandResult) := do
  let counter ← attemptOr
    (RowStore.Handler.get Raised.other (Key.chatQuota r.command.ownerId r.command.quotaPeriod))
    fun _ => throw (.repositoryConflict "dependency_failure")
  let expected := counter.elim 0 ChatQuotaRow.count
  if r.limit ≤ expected then
    return .inr ((← r.raced).getD { disposition := .quotaExceeded, counterValue := some expected })
  else if ← RowStore.Handler.submit (r.operations expected) then
    return .inr {
      disposition := .claimed
      command := some (r.item expected)
      counterValue := some (expected + 1) }
  else if ¬ r.conditional then return .inr { disposition := .retryable }
  else return (← r.raced).elim (.inl expected) .inr

def rounds (expected : ℕ) : ℕ → Handler MessageCommandResult
  | 0 => return { disposition := .retryable, counterValue := some expected }
  | n + 1 => do
    match ← r.round with
    | .inr result => return result
    | .inl expected => rounds expected n

end ClaimCommand

def claimMessageCommandAndQuota (r : ClaimCommand) : Handler MessageCommandResult := do
  let existing ← r.read
  if existing.disposition ≠ .missing then return existing
  else r.rounds 0 3

/-! ## The student's message -/

/-- A write to an attachment, among those made with the message. -/
structure AttachmentWrite where
  attachmentId : String
  condition : Option String → Bool
  action : Option String → Option String

def AttachmentWrite.write (a : AttachmentWrite) : Write Key Row :=
  ⟨.attachment a.attachmentId, a.condition, a.action⟩

/-- The message commit: the student's message, its attachments, and the command. -/
structure CommitMessage where
  command : CommandRow
  ownerId : String
  message : ℤ → MessageRow
  attachments : List AttachmentWrite
  now : Instant

namespace CommitMessage

variable (r : CommitMessage)

/-- `_message_usage_event_item` -/
def usageEvent : UsageEventRow where
  eventId := r.command.usageEventId
  actorId := r.ownerId
  action := r.command.usageAction
  quotaPeriod := r.command.quotaPeriod
  counterValueAfter := r.command.counterValue
  idempotencyKey := r.command.usageIdempotencyKey
  requestCorrelationId := r.command.usageResourceId
  conversationId := r.command.conversationId
  createdAt := r.command.createdAt
  updatedAt := r.now
  expiresAt := r.command.rowExpiresAt

def update : Update where
  change := fun row =>
    { row with status := .messageCommitted, messageCommittedAt := some r.now }
  condition := fun row =>
    row.ownerId = r.ownerId ∧ row.fingerprint = r.command.fingerprint ∧ row.status = .claimed

/-- `message_committed_operations` -/
def messageCommittedOperations : List (Write Key Row) := [
  .putNew (.usageEvent r.ownerId r.command.usageAction r.command.quotaPeriod
    r.command.usageIdempotencyKey) r.usageEvent,
  r.update.write r.command.conversationId r.command.idempotencyKey]

def operations (generation : ℤ) : List (Write Key Row) :=
  fenceCheck r.ownerId generation ::
    .putNew (.message r.command.conversationId r.command.studentMessageId) (r.message generation) ::
      (r.attachments.map AttachmentWrite.write ++ r.messageCommittedOperations)

end CommitMessage

/-- The transaction of `bind_message_attachments`, with what it raises. -/
def commitMessage (r : CommitMessage) : Handler Unit := do
  let fence ← RowStore.Handler.get (Raised.decision "UPLOAD_SERVICE_UNAVAILABLE")
    (Key.accountFence r.ownerId)
  match requireActiveAccountFence fence none with
  | none => throw (.decision "UPLOAD_NOT_FOUND")
  | some generation =>
    if ← RowStore.Handler.submit (r.operations generation) then return ()
    else throw (.decision "UPLOAD_SERVICE_UNAVAILABLE")

/-- The arguments of `reject_message_command_and_compensate`. -/
structure RejectCommand where
  conversationId : String
  idempotencyKey : String
  ownerId : String
  fingerprint : String
  errorCode : String
  now : Instant

namespace RejectCommand

variable (r : RejectCommand)

def update : Update where
  change := fun row =>
    { row with status := .rejected, errorCode := some r.errorCode, rejectedAt := some r.now }
  condition := fun row =>
    row.ownerId = r.ownerId ∧ row.fingerprint = r.fingerprint ∧ row.status = .claimed

def operations (command : CommandRow) : List (Write Key Row) := [
  r.update.write r.conversationId r.idempotencyKey,
  .delete (.chatQuotaOperation r.ownerId command.commandId)
    (Option.any fun operation => operation.commandId = command.commandId),
  .modify (.chatQuota r.ownerId command.quotaPeriod)
    (fun counter => { counter with count := counter.count - 1 })
    fun counter => counter.count = command.counterValue ∧ 0 < counter.count]

/-- What the row says after a transaction that raised. -/
def reconcile : Handler MessageCommandResult := do
  let reread ← getMessageCommand r.conversationId r.idempotencyKey
  let reconciled := classifyMessageCommand reread r.ownerId r.fingerprint 0
  if reconciled.disposition = .rejected then return reconciled
  else return { disposition := .retryable }

end RejectCommand

def rejectMessageCommandAndCompensate (r : RejectCommand) : Handler MessageCommandResult :=
  attemptOr (do
    let command ← getMessageCommand r.conversationId r.idempotencyKey
    let current := classifyMessageCommand command r.ownerId r.fingerprint 0
    match current.disposition, current.command with
    | .claimed, some command =>
      if ← RowStore.Handler.submit (r.operations command) then
        return {
          disposition := .rejected
          command := some (r.update.change command)
          counterValue := some command.counterValue
          errorCode := some r.errorCode }
      else r.reconcile
    | _, _ => return current)
    fun _ => return { disposition := .retryable }

/-! ## Leases -/

/-- The arguments of `claim_message_ai_lease`. -/
structure ClaimLease where
  conversationId : String
  idempotencyKey : String
  ownerId : String
  leaseOwner : String
  nowEpoch : ℕ
  expiresAt : ℕ
  accountFenceGeneration : Option ℤ
  conditional : Conditional

namespace ClaimLease

variable (r : ClaimLease)

/-- A last attempt that died after storing its answer, claimed only to store it. -/
def finishing (command : CommandRow) : Bool :=
  command.attempt = MESSAGE_AI_MAX_ATTEMPTS ∧
    keptAnswerAttempt command = some MESSAGE_AI_MAX_ATTEMPTS

def attempt (command : CommandRow) : ℕ :=
  if finishing command then command.attempt else command.attempt + 1

def canClaim (command : CommandRow) : Bool :=
  command.status = .messageCommitted ∨
    (command.status = .aiRunning ∧ command.expiresAt.getD 0 ≤ r.nowEpoch ∧
      attempt command ≤ MESSAGE_AI_MAX_ATTEMPTS) ∨
    (command.status = .failed ∧ failedCommandCanRetry command MESSAGE_AI_MAX_ATTEMPTS)

def generation (command : CommandRow) : ℤ :=
  match r.accountFenceGeneration with
  | none => command.accountFenceGeneration
  | some generation => if generation = 0 then command.accountFenceGeneration else generation

/-- The claim of the command that was read. -/
def update (command : CommandRow) : Update where
  change := fun row =>
    { row with
      status := .aiRunning
      leaseOwner := some r.leaseOwner
      claimedAt := some r.nowEpoch
      expiresAt := some r.expiresAt
      attempt := attempt command
      failureCategory := none
      failureRetryable := none
      failedAt := none }
  condition := fun row =>
    row.ownerId = r.ownerId ∧ row.accountFenceGeneration = r.generation command ∧
      (row.status = .messageCommitted ∨
        (row.status = .aiRunning ∧ row.expiresAt.any (· ≤ r.nowEpoch) ∧
          row.attempt < MESSAGE_AI_MAX_ATTEMPTS) ∨
        (row.status = .aiRunning ∧ row.expiresAt.any (· ≤ r.nowEpoch) ∧
          row.attempt = MESSAGE_AI_MAX_ATTEMPTS ∧
          row.providerResultAttempt = some MESSAGE_AI_MAX_ATTEMPTS ∧
          row.providerResultJson.isSome) ∨
        (row.status = .failed ∧ row.failureRetryable = some true ∧
          row.attempt < MESSAGE_AI_MAX_ATTEMPTS)) ∧
      row.providerInvokedAttempt = command.providerInvokedAttempt

def operations (command : CommandRow) : List (Write Key Row) := [
  fenceCheck r.ownerId (r.generation command),
  (r.update command).write r.conversationId r.idempotencyKey]

def refusal (command : CommandRow) : MessageCommandResult where
  disposition :=
    if command.status = .completed then .completed
    else if command.status = .rejected then .rejected
    else if command.status = .failed ∨ MESSAGE_AI_MAX_ATTEMPTS ≤ command.attempt then .terminal
    else if command.status = .aiRunning then .leaseHeld
    else .retryable
  command := some command
  counterValue := some command.counterValue
  errorCode := command.errorCode
  attempt := some command.attempt

/-- What the row says after a claim that was refused. -/
def reread : Handler MessageCommandResult := do
  match ← getMessageCommand r.conversationId r.idempotencyKey with
  | none => return { disposition := .missing }
  | some row =>
    if row.ownerId = r.ownerId then
      return classifyMessageCommand (some row) r.ownerId row.fingerprint r.nowEpoch
    else return { disposition := .missing }

def claim (command : CommandRow) : Handler MessageCommandResult := do
  if ← RowStore.Handler.submit (r.operations command) then
    return {
      disposition := .claimed
      command := some ((r.update command).change command)
      counterValue := some command.counterValue
      attempt := some (attempt command)
      previousStatus := some command.status }
  else if r.conditional then r.reread
  else return { disposition := .retryable }

end ClaimLease

def claimMessageAiLease (r : ClaimLease) : Handler MessageCommandResult :=
  attemptOr (do
    match ← getMessageCommand r.conversationId r.idempotencyKey with
    | none => return { disposition := .retryable }
    | some command =>
      if r.generation command ≤ 0 then return { disposition := .retryable }
      else if ¬ r.canClaim command ∨ MESSAGE_AI_MAX_ATTEMPTS < ClaimLease.attempt command then
        return ClaimLease.refusal command
      else r.claim command)
    fun _ => return { disposition := .retryable }

/-- The arguments of `renew_message_ai_lease`. -/
structure RenewLease where
  conversationId : String
  idempotencyKey : String
  ownerId : String
  leaseOwner : String
  nowEpoch : ℕ
  expiresAt : ℕ
  accountFenceGeneration : ℤ
  conditional : Conditional

namespace RenewLease

variable (r : RenewLease)

def update : Update where
  change := fun row => { row with claimedAt := some r.nowEpoch, expiresAt := some r.expiresAt }
  condition := fun row =>
    row.ownerId = r.ownerId ∧ row.accountFenceGeneration = r.accountFenceGeneration ∧
      row.status = .aiRunning ∧ row.leaseOwner = some r.leaseOwner ∧
      row.expiresAt.any (r.nowEpoch < ·)

def operations : List (Write Key Row) := [
  fenceCheck r.ownerId r.accountFenceGeneration,
  r.update.write r.conversationId r.idempotencyKey]

end RenewLease

def renewMessageAiLease (r : RenewLease) : Handler Bool := do
  if ← RowStore.Handler.submit r.operations then return true
  else if r.conditional then return false
  else throw (.repositoryConflict "dependency_failure")

/-! ## What the holder of a lease records -/

/-- The lease that a write is made under. -/
structure Holder where
  conversationId : String
  idempotencyKey : String
  ownerId : String
  leaseOwner : String
  leaseAttempt : ℕ
  deriving DecidableEq

/-- The row is under the lease, which may have run out. -/
def Holder.holds (h : Holder) (row : CommandRow) : Bool :=
  row.ownerId = h.ownerId ∧ row.status = .aiRunning ∧ row.leaseOwner = some h.leaseOwner ∧
    row.attempt = h.leaseAttempt

/-- `_leased_command_update`: one write that the holder of an unexpired lease may make. -/
def Holder.leasedUpdate (h : Holder) (nowEpoch : ℕ) (change : CommandRow → CommandRow) : Update where
  change := change
  condition := fun row => h.holds row ∧ row.expiresAt.any (nowEpoch < ·)

def Holder.invocation (h : Holder) (nowEpoch : ℕ) : Update :=
  h.leasedUpdate nowEpoch fun row => { row with providerInvokedAttempt := some h.leaseAttempt }

def recordProviderInvocation (h : Holder) (nowEpoch : ℕ) (conditional : Conditional) : Handler Bool :=
  updateCommand h.conversationId h.idempotencyKey (h.invocation nowEpoch) conditional

def Holder.result (h : Holder) (nowEpoch : ℕ) (resultJson : KeptResult) : Update :=
  h.leasedUpdate nowEpoch fun row =>
    { row with
      providerResultJson := some resultJson
      providerResultAttempt := some h.leaseAttempt }

def recordProviderResult (h : Holder) (nowEpoch : ℕ) (resultJson : KeptResult)
    (conditional : Conditional) : Handler Bool :=
  updateCommand h.conversationId h.idempotencyKey (h.result nowEpoch resultJson) conditional

/-- An attempt that ended leaves neither a lease nor traces. -/
def CommandRow.withoutLease (row : CommandRow) : CommandRow :=
  { row with leaseOwner := none, claimedAt := none, expiresAt := none }

def CommandRow.withoutTraces (row : CommandRow) : CommandRow :=
  { row with
    providerInvokedAttempt := none
    providerResultAttempt := none
    providerResultJson := none }

structure Failure where
  category : String
  retryable : Bool
  now : Instant

def Holder.failure (h : Holder) (f : Failure) : Update where
  change := fun row =>
    { row.withoutLease.withoutTraces with
      status := .failed
      failureCategory := some f.category
      failureRetryable := some f.retryable
      failedAt := some f.now }
  condition := h.holds

def failMessageCommand (h : Holder) (f : Failure) (conditional : Conditional) : Handler Bool :=
  updateCommand h.conversationId h.idempotencyKey (h.failure f) conditional

/-- The arguments of `complete_message_command`, beside the lease. -/
structure Completion where
  holder : Holder
  assistantMessage : MessageRow
  resultJson : MessageResult
  completedAt : Instant
  completedEpoch : ℕ
  accountFenceGeneration : ℤ
  knowledgeGaps : List (String × String)
  askedKnowledge : Option AskedKnowledgeRow

namespace Completion

variable (r : Completion)

def update : Update where
  change := fun row =>
    { row.withoutLease.withoutTraces with
      status := .completed
      resultJson := some r.resultJson
      completedAt := some r.completedAt }
  condition := fun row =>
    r.holder.holds row ∧ row.accountFenceGeneration = r.accountFenceGeneration ∧
      row.expiresAt.any (r.completedEpoch < ·)

/-- `knowledge_gap_repo.count_updates` -/
def countGap (gap : String × String) : Write Key Row :=
  .update (.knowledgeGap gap.1 gap.2)
    (fun stored => {
      subject := gap.1
      name := gap.2
      count := stored.elim 1 (·.count + 1)
      firstSeenAt := stored.elim r.completedAt KnowledgeGapRow.firstSeenAt
      lastSeenAt := r.completedAt })
    fun _ => true

def operations (knowledgeGaps : List (String × String)) : List (Write Key Row) :=
  [fenceCheck r.holder.ownerId r.accountFenceGeneration,
    .putNew (.message r.holder.conversationId r.assistantMessage.messageId) r.assistantMessage,
    r.update.write r.holder.conversationId r.holder.idempotencyKey] ++
  knowledgeGaps.map r.countGap ++
  r.askedKnowledge.toList.map fun record =>
    .putNew (.askedKnowledge r.holder.conversationId r.assistantMessage.messageId) record

/-- The completed command, if the row says that it is. -/
def reread : Handler (Option MessageCommandResult) :=
  attemptOr (do
    match ← getMessageCommand r.holder.conversationId r.holder.idempotencyKey with
    | some row =>
      if row.ownerId = r.holder.ownerId ∧ row.status = .completed ∧ row.resultJson.isSome then
        return some {
          disposition := .completed
          command := some row
          counterValue := some row.counterValue }
      else return none
    | none => return none)
    fun _ => return some { disposition := .retryable }

/-- The transaction without the counts of the gaps. -/
def withoutGaps : Handler MessageCommandResult := do
  if ← RowStore.Handler.submit (r.operations []) then return { disposition := .completed }
  else return (← r.reread).getD { disposition := .retryable }

end Completion

def completeMessageCommand (r : Completion) : Handler MessageCommandResult := do
  if r.holder.leaseAttempt = 0 then return { disposition := .retryable }
  else if ← RowStore.Handler.submit (r.operations r.knowledgeGaps) then
    return { disposition := .completed }
  else
    match ← r.reread with
    | some result => return result
    | none =>
      if r.knowledgeGaps = [] then return { disposition := .retryable }
      else r.withoutGaps

/-! ## Ended and stale commands -/

/-- The arguments of `reopen_failed_message_command`. -/
structure Reopen where
  conversationId : String
  idempotencyKey : String
  ownerId : String
  attempt : ℕ
  now : Instant
  conditional : Conditional

def Reopen.update (r : Reopen) : Update where
  change := fun row =>
    { row with
      status := .messageCommitted
      messageCommittedAt := some r.now
      failureCategory := none
      failureRetryable := none
      failedAt := none }
  condition := fun row =>
    row.ownerId = r.ownerId ∧ row.status = .failed ∧ row.failureRetryable = some true ∧
      row.attempt = r.attempt ∧ row.attempt < MESSAGE_AI_MAX_ATTEMPTS

def reopenFailedMessageCommand (r : Reopen) : Handler Bool :=
  updateCommand r.conversationId r.idempotencyKey r.update r.conditional

/-- `SETTLEMENT_ENDED_AT`: when an ended command reached its end. -/
def CommandRow.endedAt (row : CommandRow) : CommandStatus → Option Instant
  | .failed => row.failedAt
  | .terminalFailed => row.terminalAt
  | _ => none

/-- The end of a command as the sweep read it. -/
structure Ended where
  conversationId : String
  idempotencyKey : String
  ownerId : String
  status : CommandStatus
  endedAt : Instant
  conditional : Conditional

/-- `_unsettled_end_update` -/
def Ended.update (r : Ended) (change : CommandRow → CommandRow) : Update where
  change := change
  condition := fun row =>
    row.ownerId = r.ownerId ∧ row.status = r.status ∧ row.endedAt r.status = some r.endedAt ∧
      row.allowanceSettledAt.isNone

def Ended.close (r : Ended) : Update :=
  { r with status := .failed }.update fun row => { row with failureRetryable := some false }

def closeFailureForSettlement (r : Ended) : Handler Bool :=
  updateCommand r.conversationId r.idempotencyKey r.close r.conditional

def Ended.settle (r : Ended) (now : Instant) : Update :=
  r.update fun row => { row with allowanceSettledAt := some now }

def markAllowanceSettled (r : Ended) (now : Instant) : Handler Bool :=
  updateCommand r.conversationId r.idempotencyKey (r.settle now) r.conditional

/-- The arguments of `close_stale_lease`. -/
structure StaleLease where
  conversationId : String
  idempotencyKey : String
  ownerId : String
  leaseOwner : String
  expiresAt : ℕ
  nowEpoch : ℕ
  now : Instant
  conditional : Conditional

def StaleLease.update (r : StaleLease) : Update where
  change := fun row =>
    { row.withoutLease with status := .terminalFailed, terminalAt := some r.now }
  condition := fun row =>
    row.ownerId = r.ownerId ∧ row.status = .aiRunning ∧ row.leaseOwner = some r.leaseOwner ∧
      row.expiresAt = some r.expiresAt ∧ row.expiresAt.any (· ≤ r.nowEpoch)

def closeStaleLease (r : StaleLease) : Handler Bool :=
  updateCommand r.conversationId r.idempotencyKey r.update r.conditional

/-- The arguments of `mark_message_command_terminal`. -/
structure MarkTerminal where
  conversationId : String
  idempotencyKey : String
  ownerId : String
  now : Instant
  conditional : Conditional

namespace MarkTerminal

variable (r : MarkTerminal)

def update : Update where
  change := fun row =>
    { row.withoutLease with status := .terminalFailed, terminalAt := some r.now }
  condition := fun row =>
    row.ownerId = r.ownerId ∧ row.status = .aiRunning ∧ 3 ≤ row.attempt ∧
      row.providerResultJson.isNone

def reread : Handler MessageCommandResult := do
  match ← getMessageCommand r.conversationId r.idempotencyKey with
  | none => return { disposition := .missing }
  | some row =>
    if row.ownerId = r.ownerId then
      return classifyMessageCommand (some row) r.ownerId row.fingerprint 0
    else return { disposition := .missing }

end MarkTerminal

def markMessageCommandTerminal (r : MarkTerminal) : Handler MessageCommandResult := do
  if ← RowStore.Handler.submit [r.update.write r.conversationId r.idempotencyKey] then
    return { disposition := .terminal, previousStatus := some .aiRunning }
  else if r.conditional then
    attemptOr r.reread fun _ => return { disposition := .retryable }
  else return { disposition := .retryable }

/-! ## The service -/

/-- One write of a request, a worker or the sweep. -/
inductive CommandCall where
  | claim (r : ClaimCommand)
  | commit (r : CommitMessage)
  | lease (r : ClaimLease)
  | invoke (h : Holder) (nowEpoch : ℕ) (conditional : Conditional)
  | keep (h : Holder) (nowEpoch : ℕ) (resultJson : KeptResult) (conditional : Conditional)
  | renew (r : RenewLease)
  | complete (r : Completion)
  | fail (h : Holder) (f : Failure) (conditional : Conditional)
  | reopen (r : Reopen)
  | markTerminal (r : MarkTerminal)
  | closeStale (r : StaleLease)
  | closeFailure (r : Ended)
  | settle (r : Ended) (now : Instant)
  | reject (r : RejectCommand)

inductive CommandAnswer where
  | result (result : MessageCommandResult)
  | done (done : Bool)

namespace CommandCall

def handler : CommandCall → Handler CommandAnswer
  | claim r => .result <$> claimMessageCommandAndQuota r
  | commit r => (fun _ => .done true) <$> commitMessage r
  | lease r => .result <$> claimMessageAiLease r
  | invoke h nowEpoch conditional => .done <$> recordProviderInvocation h nowEpoch conditional
  | keep h nowEpoch resultJson conditional =>
    .done <$> recordProviderResult h nowEpoch resultJson conditional
  | renew r => .done <$> renewMessageAiLease r
  | complete r => .result <$> completeMessageCommand r
  | fail h f conditional => .done <$> failMessageCommand h f conditional
  | reopen r => .done <$> reopenFailedMessageCommand r
  | markTerminal r => .result <$> markMessageCommandTerminal r
  | closeStale r => .done <$> closeStaleLease r
  | closeFailure r => .done <$> closeFailureForSettlement r
  | settle r now => .done <$> markAllowanceSettled r now
  | reject r => .result <$> rejectMessageCommandAndCompensate r

/-- The reading of the clock that a call is given. -/
def nowEpoch : CommandCall → Option ℕ
  | lease r => some r.nowEpoch
  | invoke _ nowEpoch _ => some nowEpoch
  | keep _ nowEpoch _ _ => some nowEpoch
  | renew r => some r.nowEpoch
  | complete r => some r.completedEpoch
  | closeStale r => some r.nowEpoch
  | _ => none

end CommandCall

def IsCommandRow : Key → Prop
  | .command _ _ => True
  | _ => False

/-- Any number of these writes, each with a clock that was read before, and other
code that leaves commands alone. -/
def commandService (faults : Faults) : Service Key Row CommandCall (Except Raised CommandAnswer) where
  body := fun c => c.handler.run
  mayStart := fun clock c => ∀ now ∈ c.nowEpoch, now ≤ clock
  drift := fun t t' => t'.AgreesOn IsCommandRow t
  faults := faults

/-- The rows that the daily quota is kept in. -/
def IsQuotaRow : Key → Prop
  | .command _ _ => True
  | .chatQuota _ _ => True
  | .chatQuotaOperation _ _ => True
  | _ => False

/-- The same writes, where other code leaves the daily quota alone as well. -/
def quotaService (faults : Faults) : Service Key Row CommandCall (Except Raised CommandAnswer) where
  body := fun c => c.handler.run
  mayStart := fun _ _ => True
  drift := fun t t' => t'.AgreesOn IsQuotaRow t
  faults := faults

end Stoa.AskQuestion
