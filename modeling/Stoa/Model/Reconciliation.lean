import Stoa.Model.BillingFacts

/-! # Webhook commands and the checkout service

How a webhook finds its command and binds the provider's objects to it, and the
operations that run against the commands of all parents. -/

namespace Stoa.Billing

open RowStore

variable (env : Env)

/-- `_required_text` of the reconciliation service: one word. -/
def requireWord (value field : String) (maximum : ℕ) : Except Failure String :=
  if value = "" ∨ value.toList ≠ strip value.toList ∨ maximum < value.length ∨
      value.toList.any isSpace then .error (.valueError (field ++ " is invalid"))
  else .ok value

/-! ## Finding the command -/

def isLookupOf (reference : String) (lookup : PublicLookupRow) : Prop :=
  lookup.entityType = "checkout_public_lookup" ∧
    lookup.schemaVersion = PUBLIC_LOOKUP_SCHEMA_VERSION ∧ lookup.checkoutRef = reference

instance (reference : String) (lookup : PublicLookupRow) : Decidable (isLookupOf reference lookup) :=
  inferInstanceAs (Decidable (_ ∧ _))

def isCommandOf (reference : String) (lookup : PublicLookupRow) (command : CommandRow) : Prop :=
  command.entityType = "checkout_command" ∧ command.schemaVersion = COMMAND_SCHEMA_VERSION ∧
    command.commandId = lookup.commandId ∧ command.checkoutRef = reference ∧
    command.parentId = lookup.parentId

instance (reference : String) (lookup : PublicLookupRow) (command : CommandRow) :
    Decidable (isCommandOf reference lookup command) :=
  inferInstanceAs (Decidable (_ ∧ _))

/-- Resolve a provider metadata reference; a table that raises is passed on. -/
def loadCheckoutCommandForWebhook (checkoutRef : String) : RepoCall (Option CommandRow) :=
  match requireWord checkoutRef "checkout_ref" 255 with
  | .error failure => .ret (.error failure)
  | .ok reference =>
    .read (.publicLookup reference) fun
      | none => .ret (.error .tableError)
      | some lookup =>
        match lookup.filter fun lookup => isLookupOf reference lookup with
        | none => .ret (.ok none)
        | some lookup =>
          .read (.command lookup.commandId) fun
            | none => .ret (.error .tableError)
            | some command =>
              .ret (.ok (command.filter fun command => isCommandOf reference lookup command))

/-! ## Binding provider objects -/

/-- The digests of the customer, the subscription and the first invoice. -/
structure ProviderIdentity where
  customer : Sha256
  subscription : Sha256
  invoice : Sha256
  deriving DecidableEq

/-- The command carries exactly these digests. -/
def CommandRow.BoundTo (row : CommandRow) (identity : ProviderIdentity) : Prop :=
  row.providerCustomerIdDigest = some identity.customer ∧
    row.providerSubscriptionIdDigest = some identity.subscription ∧
    row.expectedInitialInvoiceIdDigest = some identity.invoice

instance (row : CommandRow) (identity : ProviderIdentity) : Decidable (row.BoundTo identity) :=
  inferInstanceAs (Decidable (_ ∧ _))

/-- The command carries none of the digests but these. -/
def CommandRow.MayBind (row : CommandRow) (identity : ProviderIdentity) : Prop :=
  row.providerCustomerIdDigest.all (· = identity.customer) = true ∧
    row.providerSubscriptionIdDigest.all (· = identity.subscription) = true ∧
    row.expectedInitialInvoiceIdDigest.all (· = identity.invoice) = true

instance (row : CommandRow) (identity : ProviderIdentity) : Decidable (row.MayBind identity) :=
  inferInstanceAs (Decidable (_ ∧ _))

structure BindRequest where
  /-- The command as the caller has loaded it. -/
  command : CommandRow
  identity : ProviderIdentity
  nowIso : String

namespace BindRequest

def bind (r : BindRequest) (row : CommandRow) : CommandRow :=
  { row with
    providerCustomerIdDigest := some r.identity.customer
    providerSubscriptionIdDigest := some r.identity.subscription
    expectedInitialInvoiceIdDigest := some r.identity.invoice
    commandState := .reconciling
    commandVersion := r.command.commandVersion + 1
    updatedAt := r.nowIso }

def condition (r : BindRequest) (row : CommandRow) : Bool :=
  row.IsAt r.command.commandId r.command.parentId r.command.commandVersion ∧
    row.MayBind r.identity

def operations (r : BindRequest) : List (Write Key Row) :=
  [.modify (.command r.command.commandId) r.bind r.condition]

def checked (r : BindRequest) : Except Failure Unit := do
  let _ ← requireWord r.command.commandId "command_id" 255
  let _ ← requireWord r.command.parentId "parent_id" 255
  let _ ← positiveInteger r.command.commandVersion "command_version"
  let _ ← requireWord r.nowIso "now_iso" 64
  return ()

/-- A binding that failed may be one's own, or that of another delivery. -/
def refresh (r : BindRequest) : RepoCall (Option CommandRow) :=
  .read (.command r.command.commandId) fun
    | none => .ret (.error .tableError)
    | some refreshed => .ret (.ok (refreshed.filter fun row => row.BoundTo r.identity))

/-- `update_item` answers with the row it has written. -/
def run (r : BindRequest) : RepoCall (Option CommandRow) :=
  if r.command.BoundTo r.identity then .ret (.ok (some r.command))
  else if ¬ r.command.MayBind r.identity then .ret (.ok none)
  else
    .transact r.operations fun
      | true => .ret (.ok (some (r.bind r.command)))
      | false => r.refresh

end BindRequest

def bindWebhookProviderIdentity (r : BindRequest) : RepoCall (Option CommandRow) :=
  match r.checked with
  | .error failure => .ret (.error failure)
  | .ok _ => r.run

/-! ## The checkout service -/

inductive Call where
  | register (r : RegisterRequest)
  | claim (r : ClaimRequest)
  | attach (r : AttachRequest)
  | markUnknown (r : MarkUnknownRequest)
  | claimExpiration (r : ClaimExpirationRequest)
  | recordExpiration (r : RecordExpirationRequest)
  | supersede (r : SupersedeRequest)
  | release (r : ReleaseRequest)
  | bind (r : BindRequest)
  | activate (r : PaidActivationRequest) (items : ActivationItems)

inductive Result where
  | command (result : CheckoutCommandResult)
  | supersession (result : CheckoutSupersessionResult)
  | bound (command : Option CommandRow)
  | activation (result : ActivationResult)
  | raised (failure : Failure)

/-- A call's outcome, returned or raised. -/
def Result.of {α : Type} (returned : α → Result) : Except Failure α → Result
  | .ok a => returned a
  | .error failure => .raised failure

def RepoCall.body {α : Type} (call : RepoCall α) (returned : α → Result) :
    Program Key Row Result :=
  Program.bind call fun outcome => .ret (.of returned outcome)

def Call.body : Call → Program Key Row Result
  | .register r => RepoCall.body (registerCheckoutCommand env r) .command
  | .claim r => RepoCall.body (claimProviderCreate env r) .command
  | .attach r => RepoCall.body (attachProviderSession env r) .command
  | .markUnknown r => RepoCall.body (markProviderOutcomeUnknown r) .command
  | .claimExpiration r => RepoCall.body (claimSessionExpiration env r) .supersession
  | .recordExpiration r => RepoCall.body (recordSessionExpiration env r) .supersession
  | .supersede r => RepoCall.body (supersedeCheckoutCommand env r) .supersession
  | .release r => RepoCall.body (releaseOpenGuardForTerminalCommand env r) .command
  | .bind r => RepoCall.body (bindWebhookProviderIdentity r) .bound
  | .activate r items => RepoCall.body (commitPaidActivation r items) .activation

/-- The rows of the checkouts, which only these operations write. -/
def Key.IsCheckout : Key → Prop
  | .command _ => True
  | .openGuard _ => True
  | .publicLookup _ => True
  | _ => False

/-- A claim is made with a clock reading that is not ahead of the clock. -/
def Call.mayStart (clock : ℕ) : Call → Prop
  | .claim r => r.nowEpoch ≤ clock
  | _ => True

/-- Any number of calls against one table. Other code may write any other row. -/
def service (faults : Faults) : Service Key Row Call Result where
  body := Call.body env
  mayStart := Call.mayStart
  drift := fun t t' => t'.AgreesOn Key.IsCheckout t
  faults := faults

/-- A table without checkouts. -/
def Fresh (t : Table Key Row) : Prop := ∀ k, k.IsCheckout → t.row k = none

end Stoa.Billing
