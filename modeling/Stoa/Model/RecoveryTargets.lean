import Stoa.Model.RecoveryJob

/-! # What a recovery job is created for

The rows that the list of reports for administrators reads, through the index of a parent
or by a scan of the table, and what is collected from its pages. -/

namespace Stoa.RecoveryTargets

open RecoveryJob (Job Target RESEND_JOB_TYPE GENERATION_RETRY_JOB_TYPE boundedTargets)

/-! ## Rows -/

/-- A report summary, as far as it is read here. -/
structure Report where
  reportId : String
  parentId : String
  studentId : String
  weekStart : String
  status : String
  studentName : Option String
  emailStatus : Option String
  parentEmail : Option String
  htmlS3Key : Option String
  s3Key : Option String
  jsonS3Key : Option String
  deriving DecidableEq

/-- A row of the table: a report summary, a recovery job, or one of the targets that
`put_recovery_job` has written with a job. -/
inductive Row where
  | summary (report : Report)
  | job (jobId : String) (job : Job)
  | target (jobId : String) (targetIndex : ℕ) (targetId : String) (target : Target)
  deriving DecidableEq

def Row.pk : Row → String
  | summary report => "REPORT#" ++ report.reportId
  | job jobId _ => "REPORT_RECOVERY_JOB#" ++ jobId
  | target jobId _ _ _ => "REPORT_RECOVERY_JOB#" ++ jobId

/-- `f"{index:05d}"` -/
def paddedIndex (index : ℕ) : List Char :=
  List.replicate (5 - (Nat.toDigits 10 index).length) '0' ++ Nat.toDigits 10 index

def Row.sk : Row → String
  | summary _ => "SUMMARY"
  | job _ _ => "SUMMARY"
  | target _ targetIndex targetId _ => "TARGET#" ++ String.ofList (paddedIndex targetIndex) ++ "#" ++ targetId

/-- An attribute that a row can be filtered by. -/
inductive Attribute where
  | status
  | weekStart
  | parentId
  | studentId
  deriving DecidableEq

def statusText : RecoveryJob.Status → String
  | .queued => "queued"
  | .running => "running"
  | .cancellationRequested => "cancellation_requested"
  | .completed => "completed"
  | .completedWithFailures => "completed_with_failures"
  | .cancelled => "cancelled"
  | .failed => "failed"
  | .stoppedFailureThreshold => "stopped_failure_threshold"
  | .stoppedTimeFloor => "stopped_time_floor"

/-- `row.get(name)`. What a job was filtered by is kept in a mapping of its own; a
target has the attributes of its report as they were when the job was created. -/
def Row.get : Row → Attribute → Option String
  | summary report, .status => some report.status
  | summary report, .weekStart => some report.weekStart
  | summary report, .parentId => some report.parentId
  | summary report, .studentId => some report.studentId
  | job _ item, .status => some (statusText item.status)
  | job _ _, _ => none
  | target _ _ _ item, .status => item.snapshot.status
  | target _ _ _ item, .weekStart => item.snapshot.weekStart
  | target _ _ _ item, .parentId => item.snapshot.parentId
  | target _ _ _ item, .studentId => item.snapshot.studentId

/-- The rows of the table, each under a key of its own. -/
structure Rows where
  rows : List Row
  keys_nodup : (rows.map fun row => (row.pk, row.sk)).Nodup

/-! ## The list of reports -/

/-- What a report is asked for by. -/
structure Filters where
  status : Option String := none
  weekStart : Option String := none
  parentId : Option String := none
  studentId : Option String := none

/-- A value that is there, and not blank. -/
def given (value : Option String) : Option String := value.filter (· ≠ "")

/-- An attribute that has to be equal to a value, where there is one. -/
def condition (name : Attribute) (value : Option String) : List (Attribute × String) :=
  ((given value).map (Prod.mk name)).toList

def Row.meets (row : Row) (conditions : List (Attribute × String)) : Bool :=
  conditions.all fun c => row.get c.1 = some c.2

def Row.isSummary (row : Row) : Bool := "REPORT#".toList.isPrefixOf row.pk.toList && row.sk = "SUMMARY"

/-- How the table yields its rows. `stop` is after how many rows a page that begins at a
place ends before its limit. -/
structure Reading (t : Rows) where
  /-- `GSI-ParentId`, the latest week first: the rows that have a parent and a week. -/
  index : String → List Row
  index_perm : ∀ parentId, (index parentId).Perm
    (t.rows.filter fun row => row.get .parentId = some parentId && (row.get .weekStart).isSome)
  index_latest : ∀ parentId, (index parentId).Pairwise fun a b =>
    (b.get .weekStart).getD "" ≤ (a.get .weekStart).getD ""
  scanned : List Row
  scanned_perm : scanned.Perm t.rows
  stop : ℕ → ℕ
  stop_pos : ∀ place, 0 < stop place

structure Page where
  items : List Row
  lastEvaluatedKey : Option ℕ

section

variable {t : Rows} (reading : Reading t)

/-- The rows from a place on, up to a limit that counts them before they are filtered. -/
def page (rows : List Row) (accepts : Row → Bool) (limit : ℕ) (place : ℕ) : Page :=
  let size := min limit (reading.stop place)
  ⟨((rows.drop place).take size).filter accepts,
    if size ≤ (rows.drop place).length then some (place + size) else none⟩

/-- `_list_reports_for_admin_parent_query` -/
def parentQuery (parentId : String) (filters : Filters) : ℕ → ℕ → Page :=
  page reading ((reading.index parentId).filter fun row => row.meets (condition .weekStart filters.weekStart))
    fun row => row.meets (condition .status filters.status ++ condition .studentId filters.studentId)

/-- `_list_reports_for_admin_scan` -/
def adminScan (filters : Filters) : ℕ → ℕ → Page :=
  page reading reading.scanned fun row => row.isSummary &&
    row.meets (condition .status filters.status ++ condition .weekStart filters.weekStart ++
      condition .studentId filters.studentId)

/-- `list_reports_for_admin` -/
def listReportsForAdmin (filters : Filters) : ℕ → ℕ → Page :=
  match given filters.parentId with
  | some parentId => parentQuery reading parentId filters
  | none => adminScan reading filters

/-! ## Collecting -/

def MAX_SCAN_PAGES : ℕ := 5

def requiredStatus (jobType : String) : String :=
  if jobType = GENERATION_RETRY_JOB_TYPE then "generation_failed" else "email_failed"

/-- `_normalized_filters` -/
def Filters.normalized (filters : Filters) (jobType : String) : Filters :=
  { filters with status := (given filters.status).getD (requiredStatus jobType) }

structure Preview where
  reportId : Option String
  parentId : Option String
  studentId : Option String
  studentName : Option String
  weekStart : Option String
  status : Option String
  emailStatus : Option String
  htmlAvailable : Bool
  jsonAvailable : Bool
  refusalReason : Option String
  deriving DecidableEq

/-- The eligibility of a report, by what is missing of it. -/
def refusalReason (jobType : String) (status emailStatus : Option String) (htmlAvailable emailAvailable : Bool) :
    Option String :=
  if jobType = GENERATION_RETRY_JOB_TYPE then
    if status = some "generation_failed" then none else some "Report is not in generation_failed state"
  else if (status = some "email_failed" ∨ emailStatus = some "failed") ∧ htmlAvailable = true ∧
      emailAvailable = true then none
  else some "Report is missing failed delivery state, parent email, or HTML artifact"

/-- `_target_preview`, but for the name of a target without a report. -/
def targetPreview (jobType : String) (row : Row) : Preview :=
  match row with
  | .summary report =>
    let htmlAvailable := (given report.htmlS3Key).isSome || (given report.s3Key).isSome
    { reportId := some report.reportId
      parentId := some report.parentId
      studentId := some report.studentId
      studentName := report.studentName
      weekStart := some report.weekStart
      status := some report.status
      emailStatus := report.emailStatus
      htmlAvailable := htmlAvailable
      jsonAvailable := (given report.jsonS3Key).isSome
      refusalReason := refusalReason jobType (some report.status) report.emailStatus htmlAvailable
        (given report.parentEmail).isSome }
  | .job _ job => ⟨none, none, none, none, none, some (statusText job.status), none, false, false,
      refusalReason jobType (some (statusText job.status)) none false false⟩
  | .target _ _ _ target =>
    let item := target.snapshot
    ⟨item.reportId, item.parentId, item.studentId, item.studentName, item.weekStart, item.status,
      item.emailStatus, false, false, refusalReason jobType item.status item.emailStatus false false⟩

/-- The rows that the pages from a place on add to those that were collected, and how many
pages were read. -/
def collectPages (list : ℕ → Page) (maxTargets : ℕ) : ℕ → ℕ → List Row → List Row × ℕ
  | 0, _, collected => (collected, 0)
  | pages + 1, place, collected =>
    if maxTargets ≤ collected.length then (collected, 0)
    else
      let collected := (collected ++ (list place).items).take maxTargets
      match (list place).lastEvaluatedKey with
      | none => (collected, 1)
      | some next =>
        let (collected, read) := collectPages list maxTargets pages next collected
        (collected, read + 1)

/-- The rows behind the targets of `_collect_targets`; none where the filters ask for
another status than the one that the job is for. -/
def collectRows (jobType : String) (filters : Filters) (maxTargets : ℤ) : Option (List Row × ℕ) :=
  let filters := filters.normalized jobType
  if filters.status ≠ some (requiredStatus jobType) then none
  else
    let maxTargets := boundedTargets maxTargets
    some (collectPages (listReportsForAdmin reading filters maxTargets) maxTargets MAX_SCAN_PAGES 0 [])

/-- `_collect_targets` -/
def collectTargets (jobType : String) (filters : Filters) (maxTargets : ℤ) : Option (List Preview × ℕ) :=
  (collectRows reading jobType filters maxTargets).map fun (rows, pages) =>
    (rows.map (targetPreview jobType), pages)

end

end Stoa.RecoveryTargets
