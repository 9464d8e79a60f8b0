import Stoa.Model.DeletionCommand
import Mathlib.Algebra.GroupWithZero.Nat

/-! # The receipt of a deletion

The last branch adds up what the others have stored; its receipts are kept with the
command when the deletion is final. -/

namespace Stoa.AccountDeletion

/-! ## Outside deliveries -/

/-- What is said of deliveries that are outside the reach of the deletion. -/
structure DeliveryReceipt where
  channel : String
  status : String
  count : ℕ
  claim : String
  deriving DecidableEq

/-- The sum of a count over all results. -/
def countOf (name : String) (results : List BranchResult) : ℕ :=
  (results.map fun result => (result.debtCounts.getD .empty).getD name 0).sum

/-- What is still owed by a branch. -/
def BranchResult.owed (result : BranchResult) : ℕ :=
  (((result.debtCounts.getD .empty).entries.filter fun entry => entry.1 ∉ NONBLOCKING_DEBT).map Prod.snd).sum

def receiptsOf (accepted delivered unknown : ℕ) : List DeliveryReceipt :=
  ([("accepted", accepted), ("delivered", delivered), ("provider_acceptance_unknown", unknown)].filter
    fun receipt => receipt.2 ≠ 0).map fun (status, count) => ⟨"provider", status, count, OUTSIDE_PURGE⟩

structure ExternalResult where
  result : BranchResult
  receipts : List DeliveryReceipt := []

/-- `_external_delivery_debt_branch` -/
def externalDeliveryDebtBranch (results : List BranchResult) : ExternalResult :=
  let accepted := countOf "external_accepted" results
  let delivered := countOf "external_delivered" results
  let unknown := countOf "external_unknown" results
  let pending := (results.map BranchResult.owed).sum
  if pending ≠ 0 then
    { result := { status := .retryable, debtCounts := some (.ofPairs [("pending", pending)]) } }
  else {
    result := {
      status := .complete
      debtCounts := some (.ofPairs [("external_accepted", accepted), ("external_delivered", delivered),
        ("external_unknown", unknown)])
      quiescent := true
      epoch := 2 }
    receipts := receiptsOf accepted delivered unknown }

/-! ## Passes -/

/-- The registry in its order, but for the last branch. -/
def PRIMARY_BRANCHES : List Branch :=
  [.accountProfile, .identityCrossAccount, .capabilityScope, .questionOcrSession, .attachments, .moderation,
    .reportRecords, .reportArtifacts, .supportRecoveryFeed, .conversationMessages, .practiceProgress,
    .adaptiveAssignment, .learningMemory, .aiTeacherDraft, .curriculumSignal, .notificationDeviceRealtime]

/-- What is stored with the command. -/
structure StoredResults where
  primary : Branch → Option BranchResult := fun _ => none
  external : Option ExternalResult := none

def StoredResults.results (stored : StoredResults) : List BranchResult :=
  PRIMARY_BRANCHES.filterMap stored.primary

def StoredResults.store (stored : StoredResults) (branch : Branch) (result : BranchResult) : StoredResults :=
  { stored with primary := Function.update stored.primary branch (some result) }

/-- How a pass gets on with a branch. -/
inductive BranchTurn where
  /-- The handler is run, and its result is stored. -/
  | recorded (env : Environment)
  /-- The handler is run, but the claim is lost before its result is stored. -/
  | lost (env : Environment)
  /-- The pass ends before the handler is run. -/
  | ended

/-- What a pass meets. -/
structure Pass where
  turn : Branch → BranchTurn
  /-- The result of the last branch is stored, if the pass comes to it. -/
  externalRecorded : Bool := true

/-- The branches one after the other, and whether the pass gets to the end of them. -/
def runBranches (userId : String) (pass : Pass) : List Branch → StoredResults → StoredResults × Bool
  | [], stored => (stored, true)
  | branch :: rest, stored =>
    if (stored.primary branch).any BranchResult.done then runBranches userId pass rest stored
    else
      match pass.turn branch with
      | .recorded env =>
        runBranches userId pass rest (stored.store branch (branch.continue_ userId (stored.primary branch) env))
      | .lost _ => (stored, false)
      | .ended => (stored, false)

/-- The external branch is complete. -/
def StoredResults.settled (stored : StoredResults) : Bool :=
  stored.external.any fun external => external.result.done

/-- `AccountDeletionService.continue_command`, as far as the stored results go. -/
def Pass.run (userId : String) (pass : Pass) (stored : StoredResults) : StoredResults :=
  let (after, reached) := runBranches userId pass PRIMARY_BRANCHES stored
  if reached = true ∧ after.settled = false ∧ pass.externalRecorded = true then
    { after with external := some (externalDeliveryDebtBranch after.results) }
  else after

def runPasses (userId : String) (passes : List Pass) (stored : StoredResults) : StoredResults :=
  passes.foldl (fun stored pass => pass.run userId stored) stored

/-! ## The end -/

/-- What the seal asks of each result. -/
def BranchResult.isSealed (result : BranchResult) : Bool :=
  result.done && (2 ≤ result.epoch) && (result.cursor.all fun cursor => cursor.entries.isEmpty) &&
    (result.debtCounts.getD .empty).entries.all fun entry =>
      (entry.1 ∈ NONBLOCKING_DEBT || entry.2 = 0) && (entry.1 ≠ "pass_dirty" || entry.2 = 0)

/-- The receipts of the terminal command, where the deletion can be made final. -/
def StoredResults.finalReceipts (stored : StoredResults) : Option (List DeliveryReceipt) :=
  stored.external.bind fun external =>
    if external.result.isSealed = true ∧
        (PRIMARY_BRANCHES.all fun branch => (stored.primary branch).any BranchResult.isSealed) = true then
      some external.receipts
    else none

end Stoa.AccountDeletion
