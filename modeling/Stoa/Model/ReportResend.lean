import Stoa.Model.AccountFence
import Stoa.Store.Handler
import Stoa.Store.Interleaving

/-! # Resending the mail of a report

An attempt finds a report, claims it, sends the mail and writes what became of it.
The index by which the report is found may show an earlier row. -/

namespace Stoa.ReportResend

open RowStore

/-! ## Rows -/

/-- A report as it is stored; any attribute may be absent. -/
structure Report where
  reportId : Option String := none
  studentId : Option String := none
  status : Option String := none
  emailStatus : Option String := none
  htmlS3Key : Option String := none
  s3Key : Option String := none
  lastOperation : Option String := none
  lastOperationBy : Option String := none
  lastOperationResult : Option String := none
  deriving DecidableEq

/-- The durable intent of one mail. -/
structure EmailIntent where
  generation : ℤ
  reportId : String
  state : String
  leaseId : Option String := none
  deriving DecidableEq

structure AuditEvent where
  actor : String
  reason : String
  correlationId : String
  result : String
  deriving DecidableEq

/-- What happened to a report, for the record: no code reads it. `sent` and `accepted`
are what the mail provider saw and answered. -/
inductive Note where
  | claimed
  | sent
  | accepted
  | outcome (success : Bool)
  deriving DecidableEq

inductive Key where
  | report (reportId : String)
  | intent (ownerId operationId : String)
  | audit (reportId eventId : String)
  | accountFence (userId : String)
  | notes (reportId : String)
  deriving DecidableEq

abbrev Row : Key → Type
  | .report _ => Report
  | .intent _ _ => EmailIntent
  | .audit _ _ => AuditEvent
  | .accountFence _ => FenceRow
  | .notes _ => List Note

/-- `ReportRecoveryErrorCode`, as far as a resend refuses with it. -/
inductive ReportRecoveryErrorCode where
  | reportDeliveryNotFailed
  | reportHtmlArtifactMissing
  | reportRecipientUnlinked
  | reportRecipientEmailMissing
  | reportResendFailed
  deriving DecidableEq

def ReportRecoveryErrorCode.statusCode : ReportRecoveryErrorCode → ℕ
  | .reportDeliveryNotFailed => 409
  | .reportHtmlArtifactMissing => 422
  | .reportRecipientUnlinked => 403
  | .reportRecipientEmailMissing => 422
  | .reportResendFailed => 502

/-- A `ReportRecoveryError`, or any other exception. -/
inductive Raised where
  | recovery (code : ReportRecoveryErrorCode)
  | other
  deriving DecidableEq

abbrev Action := Handler Key Row Raised

/-! ## An attempt -/

/-- Where a parent's copy may go. -/
inductive ParentRecipient where
  | email (address : String)
  | relationshipRevoked
  | missing

/-- One attempt with what it is told: the row that the index shows, the recipient
by the relationship of the day, the artifact (`none` when reading it raises), and
the identifiers drawn for it. -/
structure Attempt where
  found : Option Report
  recipient : ParentRecipient
  html : Option String
  operator : String
  reason : String
  correlationId : String
  operationId : String
  leaseId : String
  eventId : String

def notes (reportId : String) (note : Note) : Write Key Row :=
  .update (.notes reportId) (fun notes : Option (List Note) => note :: notes.getD []) fun _ => true

/-- What `try_claim_report_resend` asks of the stored row. -/
def Report.claimable (report : Report) : Bool :=
  report.status = some "email_failed" ∨ report.emailStatus = some "failed"

def Report.resending (report : Report) (operator : String) : Report :=
  { report with
    status := some "email_resending"
    lastOperation := some "resend_email"
    lastOperationBy := some operator
    lastOperationResult := some "in_progress" }

def claims (reportId operator : String) : List (Write Key Row) :=
  [.modify (.report reportId) (fun report : Report => report.resending operator) fun report : Report =>
    report.claimable, notes reportId .claimed]

/-- `try_claim_report_resend`; a write that raises is told from a refused one by the
exception alone. -/
def tryClaimReportResend (reportId operator : String) : Action Bool := .submit (claims reportId operator)

def Report.settled (report : Report) (operator : String) (success : Bool) : Report :=
  { report with
    status := some (if success then "email_sent" else "email_failed")
    emailStatus := some (if success then "sent" else "failed")
    lastOperation := some "resend_email"
    lastOperationBy := some operator
    lastOperationResult := some (if success then "success" else "failed") }

/-- `update_report_status` as both ends of a resend call it: without a condition. -/
def settles (reportId operator : String) (success : Bool) : List (Write Key Row) :=
  [.update (.report reportId) (fun report : Option Report => (report.getD {}).settled operator success)
    fun _ => true, notes reportId (.outcome success)]

def raises (done : Bool) : Action Unit := if done then return else throw .other

def Attempt.event (a : Attempt) (result : String) : AuditEvent :=
  ⟨a.operator, a.reason, a.correlationId, result⟩

/-- `_write_report_audit` -/
def writeReportAudit (a : Attempt) (reportId result : String) : Action Unit := do
  raises (← .submit [.putNew (.audit reportId a.eventId) (a.event result)])

/-- `_refused` -/
def refused {α : Type} (a : Attempt) (reportId : String) (code : ReportRecoveryErrorCode) : Action α := do
  writeReportAudit a reportId "refused"
  throw (.recovery code)

/-- `html_s3_key or s3_key`, if that is not empty. -/
def Report.htmlKey (report : Report) : Option String :=
  if report.htmlS3Key.getD "" ≠ "" then report.htmlS3Key
  else if report.s3Key.getD "" ≠ "" then report.s3Key
  else none

def requireFence (ownerId : String) (generation : Option ℤ) : Action ℤ := do
  match requireActiveAccountFence (← Handler.get Raised.other (Key.accountFence ownerId)) generation with
  | none => throw .other
  | some generation => return generation

def requiredPrivateString (value name : String) : Except Raised String :=
  (strippedText value name).mapError fun _ => .other

/-- `register_report_email_intent` -/
def registerReportEmailIntent (a : Attempt) (ownerId : String) (generation : ℤ) (reportId body recipient : String) :
    Action String := do
  let owner ← .of (requiredPrivateString ownerId "owner_id")
  let operation ← .of (requiredPrivateString a.operationId "operation_id")
  let _ ← .of (requiredPrivateString recipient "recipient")
  let _ ← .of (requiredPrivateString body "body")
  let report ← .of (requiredPrivateString reportId "report_id")
  raises (← .submit [
    .check (.accountFence owner) (activeFenceCondition (some generation)),
    .putNew (.intent owner operation) ({ generation, reportId := report, state := "registered" } : EmailIntent)])
  return operation

/-- `claim_report_email_intent` -/
def claimReportEmailIntent (a : Attempt) (owner operation : String) (generation : ℤ) : Action Unit := do
  let _ ← requireFence owner (some generation)
  raises (← .submit [.modify (.intent owner operation)
    (fun intent : EmailIntent => { intent with state := "claimed", leaseId := some a.leaseId })
    fun intent : EmailIntent => intent.state = "registered" ∧ intent.generation = generation])
  let _ ← requireFence owner (some generation)

/-- The call of the mail provider: whether it answers that it accepts the mail. -/
def sendEmail (reportId : String) : Action Bool := do
  if ← .submit [notes reportId .sent] then
    let _ ← .submit [notes reportId .accepted]
    return true
  else return false

/-- `send_fenced_weekly_report_email`, and that its outcome is `accepted`. -/
def sendFencedWeeklyReportEmail (a : Attempt) (ownerId : String) (generation : ℤ)
    (reportId body recipient : String) : Action Bool := do
  let operation ← registerReportEmailIntent a ownerId generation reportId body recipient
  let owner ← .of (requiredPrivateString ownerId "owner_id")
  claimReportEmailIntent a owner operation generation
  let _ ← requireFence ownerId (some generation)
  sendEmail reportId

/-- What is tried before the outcome is written. -/
def delivers (a : Attempt) (report : Report) (reportId recipient : String) : Action Bool := do
  match a.html with
  | none => throw .other
  | some html =>
      let ownerId := report.studentId.getD ""
      let generation ← requireFence ownerId none
      sendFencedWeeklyReportEmail a ownerId generation reportId html recipient

/-- Both ends of `resend_report_email`. -/
def writeOutcome (a : Attempt) (reportId : String) (success : Bool) : Action Unit := do
  raises (← .submit (settles reportId a.operator success))
  writeReportAudit a reportId (if success then "success" else "failed")
  if success then return else throw (.recovery .reportResendFailed)

/-- `resend_report_email`; the report is the row that was read before the claim. -/
def resendReportEmail (a : Attempt) (report : Report) (reportId : String) : Action Unit := do
  if report.status ≠ some "email_failed" ∧ report.emailStatus ≠ some "failed" then
    refused a reportId .reportDeliveryNotFailed
  else if report.htmlKey = none then refused a reportId .reportHtmlArtifactMissing
  else match a.recipient with
    | .relationshipRevoked => refused a reportId .reportRecipientUnlinked
    | .missing => refused a reportId .reportRecipientEmailMissing
    | .email address =>
        let success ← tryCatch (delivers a report reportId address) fun _ => pure false
        writeOutcome a reportId success

/-- What is recorded on the target of a job. -/
inductive Outcome where
  | notFound
  | refused
  | failed
  | success
  deriving DecidableEq

/-- The outcome of a target whose resend raised. -/
def outcomeOf (raised : Raised) : Action Outcome :=
  match raised with
  | .recovery code => return if 500 ≤ code.statusCode then .failed else .refused
  | .other => throw .other

/-- `_execute_resend_target` -/
def executeResendTarget (a : Attempt) : Action Outcome := do
  match a.found with
  | none => return .notFound
  | some report =>
      match report.reportId with
      | none => return .refused
      | some reportId =>
          if ← tryClaimReportResend reportId a.operator then
            tryCatch (do resendReportEmail a report reportId; return .success) outcomeOf
          else return .refused

/-! ## Service -/

/-- `setFence` is what other code does to the fence of an account. -/
inductive Call where
  | resend (a : Attempt)
  | setFence (userId : String) (fence : FenceRow)

/-- Any number of attempts, each of any job. -/
def service : Service Key Row Call (Except Raised Outcome) where
  body
    | .resend a => (executeResendTarget a).run
    | .setFence userId fence => (do
        let _ ← .submit [.put (.accountFence userId) fence fun _ => true]
        return .success : Action Outcome).run
  mayStart _ _ := True
  drift t t' := t' = t
  faults := ⟨True, True, True⟩

end Stoa.ReportResend
