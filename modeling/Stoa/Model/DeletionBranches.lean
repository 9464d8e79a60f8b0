import Stoa.Data.OrderedDict

/-! # The branches of an account deletion

Each branch advances one page of the table at a time. What it has found so far in
a pass, and how many passes in a row were clean, is carried from one page to the
next by the result that is stored with the command. -/

namespace Stoa.AccountDeletion

/-! ## Cursors -/

/-- The key a scan goes on from. -/
structure Place where
  pk : String
  sk : String
  pk_ne : pk ≠ ""
  sk_ne : sk ≠ ""

/-- A cursor as it is stored. -/
abbrev Cursor := OrderedDict String (Option String)

def Place.cursor (place : Place) : Cursor := .ofPairs [("PK", some place.pk), ("SK", some place.sk)]

/-- A key of two strings, neither of them blank. -/
def placeOf (pk sk : String) : Option Place :=
  if h : pk ≠ "" ∧ sk ≠ "" then some ⟨pk, sk, h.1, h.2⟩ else none

/-- `_validated_cursor` -/
def validatedCursor (value : Cursor) : Option Place :=
  match value.get? "PK", value.get? "SK" with
  | some (some pk), some (some sk) => if value.keys.length = 2 then placeOf pk sk else none
  | _, _ => none

/-! ## Results -/

inductive BranchStatus where
  | complete
  | retryable
  | conflict
  deriving DecidableEq, Repr

structure BranchResult where
  status : BranchStatus
  cursor : Option Cursor := none
  debtCounts : Option (OrderedDict String ℕ) := none
  quiescent : Bool := false
  epoch : ℕ := 0

def BranchResult.done (result : BranchResult) : Bool := result.status = .complete ∧ result.quiescent = true

section

variable (previous : Option BranchResult)

def priorCursor : Option Cursor := previous.bind BranchResult.cursor

def priorEpoch : ℕ := (previous.map BranchResult.epoch).getD 0

/-- An earlier page of this pass has found something. -/
def priorDirty : Bool :=
  ((previous.bind BranchResult.debtCounts).bind fun debt => debt.get? "pass_dirty").getD 0 ≠ 0

end

/-! ## What a run meets -/

/-- A row of the table, as far as the branches look at it; an attribute that is not
there is blank. -/
structure PrivateRow where
  pk : String
  sk : String
  entityType : String := ""
  studentId : Option String := none
  conversationId : String := ""
  signalId : String := "unknown"
  status : String := ""
  deriving DecidableEq

def PrivateRow.identity (item : PrivateRow) : String := item.pk ++ "|" ++ item.sk

structure Page where
  items : List PrivateRow
  cursor : Option Place
  /-- Rows of the student whose owner could not be established. -/
  unresolved : ℕ := 0

/-- How the mutation of a row by a base branch ends. -/
inductive Mutation where
  | done
  | rowConflict
  | raised
  deriving DecidableEq

/-- How the scrub of a row ends that catches what it raises. -/
inductive Scrub where
  | done
  | raised
  /-- The attachments of the conversation are not all released. -/
  | incomplete
  /-- A report object that was not purged. -/
  | refused (status : String)
  deriving DecidableEq

def PURGE_CURSOR_CATEGORIES : List String :=
  ["saved", "references", "intents", "multipart", "immutable", "staging", "quota", "provider_debt"]

/-- `AttachmentPurgeBranchResult`, and whether the purge came upon a row to purge. -/
structure AttachmentPurge where
  status : BranchStatus
  suppliedCursors : String → Option String := fun _ => none
  suppliedDebt : String → ℕ := fun _ => 0
  quiescent : Bool
  found : Bool

def AttachmentPurge.cursors (result : AttachmentPurge) : Cursor :=
  .ofPairs (PURGE_CURSOR_CATEGORIES.map fun name => (name, result.suppliedCursors name))

def AttachmentPurge.debtCounts (result : AttachmentPurge) : OrderedDict String ℕ :=
  .ofPairs (PURGE_CURSOR_CATEGORIES.map fun name => (name, result.suppliedDebt name))

/-- What one run of a handler meets; `none` where it raises. -/
structure Environment where
  scan : Option Place → Option Page := fun _ => none
  connections : Option Place → Option Page := fun _ => none
  /-- `create_provider_revoke_debt` returns. -/
  debtRecorded : Bool := true
  mutate : PrivateRow → Mutation := fun _ => .done
  scrub : PrivateRow → Scrub := fun _ => .done
  revoke : PrivateRow → Scrub := fun _ => .done
  purge : Option AttachmentPurge := none

/-! ## Passes -/

/-- The end of a clean pass. -/
def cleanPass (previous : Option BranchResult) (debtCounts : OrderedDict String ℕ) : BranchResult :=
  let epoch := priorEpoch previous + 1
  { status := if 2 ≤ epoch then .complete else .retryable
    debtCounts := debtCounts
    quiescent := 2 ≤ epoch
    epoch := epoch }

/-- Where a pass goes on from: what is stored, or the top of the table. -/
def resume : Option Cursor → Option (Option Place)
  | none => some none
  | some raw => (validatedCursor raw).map some

def runBaseBranch (predicate : PrivateRow → Bool) (previous : Option BranchResult) (env : Environment) :
    Option BranchResult := do
  let page ← env.scan (← resume (priorCursor previous))
  let matching := page.items.filter predicate
  let passDirty := priorDirty previous || !matching.isEmpty
  match (matching.map env.mutate).find? fun mutation => mutation ≠ .done with
  | some .rowConflict => return {
      status := .retryable
      cursor := priorCursor previous
      debtCounts := some (.ofPairs [("row_conflict", 1), ("pass_dirty", 1)]) }
  | some _ => none
  | none =>
    match page.cursor with
    | some place => return {
        status := .retryable
        cursor := place.cursor
        debtCounts := some (.ofPairs [("pass_dirty", passDirty.toNat), ("processed", matching.length)])
        epoch := priorEpoch previous }
    | none =>
      if passDirty then return {
        status := .retryable
        debtCounts := some (.ofPairs [("pass_dirty", 0), ("processed", matching.length)]) }
      else return cleanPass previous .empty

/-- The rows that were scrubbed, and what is left of the others. -/
structure Tally where
  processed : ℕ := 0
  debt : OrderedDict String ℕ := .empty

/-- Scrub one row after the other; `debtOf` names the debt of one that was not. -/
def tally (debtOf : PrivateRow → Option String) (items : List PrivateRow) : Tally :=
  items.foldl (fun found item =>
    match debtOf item with
    | none => { found with processed := found.processed + 1 }
    | some name => { found with debt := found.debt.insert name 1 }) {}

def Tally.withUnresolved (found : Tally) (unresolved : ℕ) : Tally :=
  if unresolved = 0 then found else { found with debt := found.debt.insert "unresolved_lineage" unresolved }

def passCounts : List String := ["pass_dirty", "processed"]

/-- Debt of a row, beside what is counted of the pass. -/
def itemDebt (counts : List String) (debt : OrderedDict String ℕ) : Bool :=
  debt.keys.any fun name => name ∉ counts

/-- The end of a page of a loop that keeps debt for each row. -/
def closePage (previous : Option BranchResult) (cursor : Option Cursor) (anyRow : Bool) (found : Tally) :
    BranchResult :=
  let dirty := priorDirty previous || anyRow || !found.debt.entries.isEmpty
  let debt := (found.debt.insert "pass_dirty" dirty.toNat).insert "processed" found.processed
  match cursor with
  | some cursor => { status := .retryable, cursor := cursor, debtCounts := debt, epoch := priorEpoch previous }
  | none =>
    if dirty then
      if itemDebt passCounts debt then { status := .retryable, debtCounts := debt }
      else {
        status := .retryable
        debtCounts := some (.ofPairs [("pass_dirty", 0), ("processed", found.processed)]) }
    else cleanPass previous .empty

/-! ## Branches -/

def isProfileRow (item : PrivateRow) : Bool :=
  item.sk = "PROFILE" ∨ item.entityType ∈ ["parent_student_binding", "parent_student_link"]

def accountProfileBranch : Option BranchResult → Environment → Option BranchResult :=
  runBaseBranch isProfileRow

def isIdentityRow (item : PrivateRow) : Bool :=
  item.entityType ∈ ["identity_binding", "user_identity_inventory", "public_identity_command"]

def identityCrossAccountBranch (previous : Option BranchResult) (env : Environment) :
    Option BranchResult :=
  if env.debtRecorded then runBaseBranch isIdentityRow previous env else none

def isCapabilityRow (item : PrivateRow) : Bool := item.entityType.startsWith "capability_"

def capabilityScopeBranch : Option BranchResult → Environment → Option BranchResult :=
  runBaseBranch isCapabilityRow

def isQuestionRow (userId : String) (item : PrivateRow) : Bool :=
  item.entityType ∈ ["question", "teacher_session", "teacher_escalation_intent"] ∨
    item.pk.startsWith "QUESTION#" ∨ item.pk.startsWith "SESSION#" ∨
    (item.entityType = "help_request" ∧ item.studentId ≠ some userId)

def questionOcrSessionBranch (userId : String) : Option BranchResult → Environment → Option BranchResult :=
  runBaseBranch (isQuestionRow userId)

/-- The purge goes through all rows of the owner itself. -/
def attachmentsBranch (previous : Option BranchResult) (env : Environment) : Option BranchResult := do
  let result ← env.purge
  let epoch := priorEpoch previous + if result.quiescent then 1 else 0
  return {
    status := if result.status = .complete ∧ epoch < 2 then .retryable else result.status
    -- A cursor with nothing left to resume is no cursor.
    cursor := if result.cursors.values.any Option.isSome then some result.cursors else none
    debtCounts := result.debtCounts
    quiescent := result.quiescent
    epoch := epoch }

/-- A row that is not scrubbed is debt under its key. -/
def rowDebt (outcome : PrivateRow → Scrub) (item : PrivateRow) : Option String :=
  if outcome item = .done then none else some item.identity

/-- Both families go on from the same place. -/
def familyCursor (place : Place) : Cursor := .ofPairs [("summary_pk", some place.pk),
  ("summary_sk", some place.sk), ("event_pk", some place.pk), ("event_sk", some place.sk)]

/-- The place that a moderation cursor stores. -/
def moderationPlace (raw : Cursor) : Option Place :=
  match raw.get? "PK", raw.get? "SK" with
  | some (some pk), some (some sk) => if raw.keys.length = 2 then placeOf pk sk else none
  | _, _ =>
    match raw.get? "summary_pk", raw.get? "summary_sk", raw.get? "event_pk", raw.get? "event_sk" with
    | some (some summaryPk), some (some summarySk), some (some eventPk), some (some eventSk) =>
      if raw.keys.length = 4 ∧ summaryPk = eventPk ∧ summarySk = eventSk then placeOf summaryPk summarySk
      else none
    | _, _, _, _ => none

def resumeModeration : Option Cursor → Option (Option Place)
  | none => some none
  | some raw => (moderationPlace raw).map some

def moderationSupportBranch (previous : Option BranchResult) (env : Environment) : Option BranchResult := do
  let page ← env.scan (← resumeModeration (priorCursor previous))
  let found := (tally (rowDebt env.scrub) page.items).withUnresolved page.unresolved
  return closePage previous (page.cursor.map familyCursor) (!page.items.isEmpty) found

inductive ReportFamily where
  | support
  | records
  deriving DecidableEq

def ReportFamily.selects : ReportFamily → PrivateRow → Bool
  | .support, item => item.pk.startsWith "SUPPORT_"
  | .records, item => !item.pk.startsWith "SUPPORT_" && !item.sk.startsWith "REPORT_OBJECT#"

def runReportRowBranch (family : ReportFamily) (previous : Option BranchResult) (env : Environment) :
    Option BranchResult := do
  let page ← env.scan (← resume (priorCursor previous))
  let selected := page.items.filter family.selects
  let found := (tally (rowDebt env.scrub) selected).withUnresolved page.unresolved
  return closePage previous (page.cursor.map Place.cursor) (!selected.isEmpty) found

def reportRecordsBranch : Option BranchResult → Environment → Option BranchResult :=
  runReportRowBranch .records

def isReportObject (item : PrivateRow) : Bool := item.sk.startsWith "REPORT_OBJECT#"

/-- Objects that are not purged are counted by how they are left. -/
def tallyObjects (outcome : PrivateRow → Scrub) (items : List PrivateRow) : Tally :=
  items.foldl (fun found item =>
    match outcome item with
    | .done => { found with processed := found.processed + 1 }
    | .refused status => { found with debt := found.debt.insert status (found.debt.getD status 0 + 1) }
    | _ => { found with debt := found.debt.insert item.identity 1 }) {}

/-- Rows whose owner is not established are left to the report rows. -/
def reportArtifactsBranch (previous : Option BranchResult) (env : Environment) : Option BranchResult := do
  let page ← env.scan (← resume (priorCursor previous))
  let selected := page.items.filter isReportObject
  return closePage previous (page.cursor.map Place.cursor) (!selected.isEmpty)
    (tallyObjects env.scrub selected)

def supportRecoveryFeedBranch : Option BranchResult → Environment → Option BranchResult :=
  runReportRowBranch .support

def conversationDebt (outcome : PrivateRow → Scrub) (item : PrivateRow) : Option String :=
  match outcome item with
  | .done => none
  | .incomplete => some ("association:" ++ item.conversationId)
  | _ => some item.identity

def conversationMessagesBranch (previous : Option BranchResult) (env : Environment) :
    Option BranchResult := do
  let page ← env.scan (← resume (priorCursor previous))
  return closePage previous (page.cursor.map Place.cursor) (!page.items.isEmpty)
    (tally (conversationDebt env.scrub) page.items)

/-- The end of a page of a loop that asks for the debt of its rows before it asks
whether the pass is dirty. -/
def closeDebtFirst (counts : List String) (previous : Option BranchResult) (cursor : Option Cursor)
    (anyRow : Bool) (found : Tally) (policy : OrderedDict String ℕ → OrderedDict String ℕ)
    (settled : OrderedDict String ℕ) : BranchResult :=
  let dirty := priorDirty previous || anyRow || !found.debt.entries.isEmpty
  let debt := policy ((found.debt.insert "pass_dirty" dirty.toNat).insert "processed" found.processed)
  match cursor with
  | some cursor => { status := .retryable, cursor := cursor, debtCounts := debt, epoch := priorEpoch previous }
  | none =>
    if itemDebt counts debt then { status := .retryable, debtCounts := debt }
    else if dirty then {
      status := .retryable
      debtCounts := policy (.ofPairs [("pass_dirty", 0), ("processed", found.processed)]) }
    else cleanPass previous settled

def runLearningScrubBranch (previous : Option BranchResult) (env : Environment) : Option BranchResult := do
  let page ← env.scan (← resume (priorCursor previous))
  return closeDebtFirst passCounts previous (page.cursor.map Place.cursor) (!page.items.isEmpty)
    (tally (rowDebt env.scrub) page.items) id .empty

def practiceProgressBranch : Option BranchResult → Environment → Option BranchResult :=
  runLearningScrubBranch

def adaptiveAssignmentBranch : Option BranchResult → Environment → Option BranchResult :=
  runLearningScrubBranch

def learningMemoryBranch : Option BranchResult → Environment → Option BranchResult :=
  runLearningScrubBranch

def aiTeacherDraftBranch : Option BranchResult → Environment → Option BranchResult :=
  runLearningScrubBranch

def signalDebt (outcome : PrivateRow → Scrub) (manifest : PrivateRow) : Option String :=
  if outcome manifest = .done then none else some ("signal:" ++ manifest.signalId)

def curriculumSignalBranch (previous : Option BranchResult) (env : Environment) : Option BranchResult := do
  let page ← env.scan (← resume (priorCursor previous))
  return closeDebtFirst passCounts previous (page.cursor.map Place.cursor) (!page.items.isEmpty)
    (tally (signalDebt env.scrub) page.items) id .empty

/-- One of the two places of a notification cursor; blank fields are refused. -/
def familyPlace (prefix_ : String) (cursor : Cursor) : Option (Option Place) :=
  match (cursor.get? (prefix_ ++ "_pk")).join, (cursor.get? (prefix_ ++ "_sk")).join with
  | none, none => some none
  | some pk, some sk => (placeOf pk sk).map some
  | _, _ => none

def placeEntries (prefix_ : String) : Option Place → List (String × Option String)
  | none => []
  | some place => [(prefix_ ++ "_pk", some place.pk), (prefix_ ++ "_sk", some place.sk)]

/-- What is still to be scanned of the two families. -/
def nextCursor (notification connection : Option Place) : Option Cursor :=
  let next := placeEntries "notification" notification ++ placeEntries "connection" connection
  if next = [] then none else some (.ofPairs next)

/-- Counted for the record, whether or not the row could be scrubbed. -/
def externalCounts (deliveryIntent : String) (items : List PrivateRow) : ℕ × ℕ :=
  let intents := items.filter fun item => item.entityType = deliveryIntent
  (intents.countP fun item => item.status = "accepted",
    intents.countP fun item => item.status = "provider_acceptance_unknown")

def DELIVERY_INTENT_ENTITY : String := "notification_delivery_intent"

def notificationCounts : List String :=
  ["pass_dirty", "processed", "external_accepted", "external_unknown"]

/-- The scrub of a row of one of the families, which its debt names. -/
def familyDebt (prefix_ : String) (outcome : PrivateRow → Scrub) (item : PrivateRow) : Option String :=
  if outcome item = .done then none else some (prefix_ ++ item.identity)

def notificationDeviceRealtimeBranch (previous : Option BranchResult) (env : Environment) :
    Option BranchResult := do
  let cursor := (priorCursor previous).getD .empty
  let notifications ← env.scan (← familyPlace "notification" cursor)
  let connections ← env.connections (← familyPlace "connection" cursor)
  let scrubbed := tally (familyDebt "notification:" env.scrub) notifications.items
  let revoked := tally (familyDebt "connection:" env.revoke) connections.items
  let debt := revoked.debt.entries.foldl (fun d e => d.insert e.1 e.2) scrubbed.debt
  let external := externalCounts DELIVERY_INTENT_ENTITY notifications.items
  let policy := fun d : OrderedDict String ℕ =>
    (d.insert "external_accepted" external.1).insert "external_unknown" external.2
  return closeDebtFirst notificationCounts previous (nextCursor notifications.cursor connections.cursor)
    (!notifications.items.isEmpty || !connections.items.isEmpty)
    ⟨scrubbed.processed + revoked.processed, debt⟩ policy (policy .empty)

/-! ## Continuing -/

/-- The registry, but for the branch that only adds up what the others have stored. -/
inductive Branch where
  | accountProfile
  | identityCrossAccount
  | capabilityScope
  | questionOcrSession
  | attachments
  | moderation
  | reportRecords
  | reportArtifacts
  | supportRecoveryFeed
  | conversationMessages
  | practiceProgress
  | adaptiveAssignment
  | learningMemory
  | aiTeacherDraft
  | curriculumSignal
  | notificationDeviceRealtime
  deriving DecidableEq, Repr

/-- `BRANCH_HANDLERS` -/
def Branch.handler (userId : String) : Branch → Option BranchResult → Environment → Option BranchResult
  | .accountProfile => accountProfileBranch
  | .identityCrossAccount => identityCrossAccountBranch
  | .capabilityScope => capabilityScopeBranch
  | .questionOcrSession => questionOcrSessionBranch userId
  | .attachments => attachmentsBranch
  | .moderation => moderationSupportBranch
  | .reportRecords => reportRecordsBranch
  | .reportArtifacts => reportArtifactsBranch
  | .supportRecoveryFeed => supportRecoveryFeedBranch
  | .conversationMessages => conversationMessagesBranch
  | .practiceProgress => practiceProgressBranch
  | .adaptiveAssignment => adaptiveAssignmentBranch
  | .learningMemory => learningMemoryBranch
  | .aiTeacherDraft => aiTeacherDraftBranch
  | .curriculumSignal => curriculumSignalBranch
  | .notificationDeviceRealtime => notificationDeviceRealtimeBranch

/-- What `continue_command` stores of a branch: a complete one is not run again, and
what the handler raises is debt. -/
def Branch.continue_ (userId : String) (branch : Branch) (previous : Option BranchResult)
    (env : Environment) : BranchResult :=
  let result := (branch.handler userId previous env).getD
    { status := .retryable, debtCounts := some (.ofPairs [("dependency", 1)]) }
  match previous with
  | none => result
  | some stored => if stored.done then stored else result

/-- The result that is stored after a number of runs, from none. -/
def Branch.run (userId : String) (branch : Branch) (envs : List Environment) : Option BranchResult :=
  envs.foldl (fun previous env => some (branch.continue_ userId previous env)) none

end Stoa.AccountDeletion
