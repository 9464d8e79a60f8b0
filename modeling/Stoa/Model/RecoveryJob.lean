import Stoa.Model.Values
import Stoa.Store.Handler
import Stoa.Store.Interleaving
import Mathlib.Data.List.Sort

/-! # Report recovery jobs

A job is a row with totals and one row for each of its targets. A worker run claims the
targets one after the other, and writes the totals of what it has done itself when it ends. -/

namespace Stoa.RecoveryJob

open RowStore

/-! ## Rows -/

inductive Status where
  | queued
  | running
  | cancellationRequested
  | completed
  | completedWithFailures
  | cancelled
  | failed
  | stoppedFailureThreshold
  | stoppedTimeFloor
  deriving DecidableEq, Repr

inductive TargetResult where
  | pending
  | inProgress
  | success
  | refused
  | notFound
  | failed
  | skippedCancelled
  deriving DecidableEq, Repr

inductive StopReason where
  | lambdaTimeRemainingFloor
  | failureThreshold
  | cancelledBeforeStart
  deriving DecidableEq, Repr

def MAX_TARGETS : ℕ := 25

def FAILURE_THRESHOLD : ℕ := 5

def TIME_REMAINING_FLOOR_MS : ℤ := 30000

def RESEND_JOB_TYPE : String := "resend_email"

def GENERATION_RETRY_JOB_TYPE : String := "retry_generation"

def DEFAULT_RESUME_RESULTS : List TargetResult := [.failed, .refused, .notFound]

def RESUMABLE_TARGET_RESULTS : List TargetResult := [.failed, .refused, .notFound, .skippedCancelled]

def RESUMABLE_SOURCE_STATUSES : List Status :=
  [.completed, .completedWithFailures, .cancelled, .failed, .stoppedFailureThreshold, .stoppedTimeFloor]

structure Counts where
  attempted : ℕ := 0
  success : ℕ := 0
  refused : ℕ := 0
  notFound : ℕ := 0
  failed : ℕ := 0
  skippedCancelled : ℕ := 0
  deriving DecidableEq

/-- What identifies the report of a target, and how it was found. -/
structure Snapshot where
  reportId : Option String
  parentId : Option String
  studentId : Option String
  weekStart : Option String
  studentName : Option String
  status : Option String
  emailStatus : Option String
  deriving DecidableEq

structure Target where
  snapshot : Snapshot
  result : TargetResult := .pending
  code : Option String := none
  errorClass : Option String := none
  sourceJobId : Option String := none
  sourceTargetResult : Option TargetResult := none
  createdAt : Instant
  updatedAt : Instant
  attemptedAt : Option Instant := none
  completedAt : Option Instant := none
  deriving DecidableEq

/-- A target in a preview of a resume job. -/
structure TargetPreview where
  targetId : String
  snapshot : Snapshot
  sourceResult : TargetResult
  deriving DecidableEq

/-- A target as the digest of a preview sees it. -/
structure Digested where
  targetId : String
  sourceResult : TargetResult
  reportId : Option String
  parentId : Option String
  studentId : Option String
  weekStart : Option String
  deriving DecidableEq

/-- What the digest of a preview is taken over. -/
structure PreviewToken where
  sourceJobId : String
  jobType : String
  reason : String
  resultFilters : List TargetResult
  maxTargets : ℕ
  targets : List Digested
  deriving DecidableEq

structure Job where
  jobType : Option String
  status : Status
  reason : String
  createdBy : String
  createdAt : Instant
  updatedAt : Instant
  sourceJobId : Option String := none
  resumeResultFilters : List TargetResult := []
  targetCount : ℕ
  pendingCount : ℕ
  counts : Counts := {}
  failureThreshold : ℕ := FAILURE_THRESHOLD
  previewToken : Option PreviewToken := none
  startedAt : Option Instant := none
  completedAt : Option Instant := none
  cancelledAt : Option Instant := none
  cancellationRequestedBy : Option String := none
  cancellationRequestedAt : Option Instant := none
  stopReason : Option StopReason := none
  deriving DecidableEq

/-- The sort key of a target: its place in the job, and its own identity. -/
abbrev TargetSk := ℕ × String

inductive Key where
  | job (jobId : String)
  | target (jobId : String) (sk : TargetSk)
  deriving DecidableEq

abbrev Item : Key → Type
  | .job _ => Job
  | .target _ _ => Target

inductive Raised where
  | recoveryJobNotFound
  | recoveryJobAlreadyTerminal
  | recoveryJobNotCancellable
  | recoveryJobRecordIncomplete
  | recoveryReasonRequired
  | sourceRecoveryJobNotTerminal
  | sourceRecoveryJobIncomplete
  | recoveryJobTypeNotResumable
  | resumeResultFilterUnsupported
  | recoveryPreviewStale
  | recoveryJobNoEligibleTargets
  | other
  deriving DecidableEq

abbrev Action (α : Type) := Handler Key Item Raised α

/-! ## Access -/

def getRecoveryJob (jobId : String) : Action (Option Job) :=
  Handler.get (V := Item) Raised.other (Key.job jobId)

def isTargetOf (jobId : String) : Key → Bool
  | .target job _ => job = jobId
  | .job _ => false

/-- The targets in a listing, in the order of their sort keys. -/
def targetsIn (rows : List ((k : Key) × Item k)) : List (TargetSk × Target) :=
  (rows.filterMap fun
    | ⟨.target _ sk, target⟩ => some (sk, target)
    | ⟨.job _, _⟩ => none).insertionSort fun a b => a.1.1 ≤ b.1.1

/-- `_list_all_job_targets` -/
def listAllJobTargets (jobId : String) : Action (List (TargetSk × Target)) := do
  let rows ← Handler.list (V := Item) Raised.other (isTargetOf jobId)
  return targetsIn rows

/-- An update that is not expected to be refused. -/
def updates (write : Write Key Item) : Action Unit := do
  if ← Handler.submit [write] then return () else throw .other

def tryClaimRecoveryJob (jobId : String) (startedAt : Instant) : Action Bool :=
  Handler.submit [.modify (.job jobId)
    (fun job : Job =>
      { job with status := .running, startedAt := some (job.startedAt.getD startedAt), updatedAt := startedAt })
    fun job : Job => job.status = .queued]

def requestRecoveryJobCancellation (jobId requestedBy : String) (requestedAt : Instant) : Action Bool :=
  Handler.submit [.modify (.job jobId)
    (fun job : Job => { job with
      status := .cancellationRequested
      cancellationRequestedBy := some requestedBy
      cancellationRequestedAt := some requestedAt
      updatedAt := requestedAt })
    fun job : Job => job.status = .queued ∨ job.status = .running]

def updateRecoveryJobStatus (jobId : String) (fields : Job → Job) : Action Unit :=
  updates (.modify (.job jobId) fields fun _ : Job => true)

def tryClaimRecoveryJobTarget (jobId : String) (sk : TargetSk) (attemptedAt : Instant) : Action Bool :=
  Handler.submit [.modify (.target jobId sk)
    (fun target : Target =>
      { target with result := .inProgress, attemptedAt := some attemptedAt, updatedAt := attemptedAt })
    fun target : Target => target.result = .pending]

def updateRecoveryJobTarget (jobId : String) (sk : TargetSk) (fields : Target → Target) : Action Unit :=
  updates (.modify (.target jobId sk) fields fun _ : Target => true)

/-! ## A run of the worker -/

inductive Outcome where
  | success
  | refused
  | notFound
  | failed
  deriving DecidableEq, Repr

def Outcome.result : Outcome → TargetResult
  | .success => .success
  | .refused => .refused
  | .notFound => .notFound
  | .failed => .failed

/-- What the executor of a target comes to. -/
structure Settlement where
  outcome : Outcome
  reportId : Option String
  status : Option String
  emailStatus : Option String
  code : Option String
  errorClass : Option String
  completedAt : Instant

/-- One delivery of a worker event, with what the run takes from outside of the table. -/
structure Delivery where
  jobId : String
  expectedJobType : String
  now : Instant
  closedAt : Instant
  remainingTimeMs : TargetSk → ℤ
  attemptedAt : TargetSk → Instant
  skippedAt : TargetSk → Instant
  /-- The executor may raise, and the run then ends there. -/
  execute : TargetSk → Option Settlement

inductive Ran where
  | notFound
  | ignored
  | ended (status : Status)
  deriving DecidableEq

/-- `_job_type_or_none` -/
def Job.jobTypeOrNone (job : Job) : Option String :=
  job.jobType.filter fun name => name = RESEND_JOB_TYPE ∨ name = GENERATION_RETRY_JOB_TYPE

def Target.skip (at_ : Instant) (target : Target) : Target :=
  { target with result := .skippedCancelled, code := some "recovery_target_cancelled", updatedAt := at_ }

/-- `_finish_target` -/
def Target.finish (snapshot : Snapshot) (settled : Settlement) (target : Target) : Target :=
  { target with
    snapshot := { target.snapshot with
      reportId := settled.reportId.or snapshot.reportId
      status := settled.status
      emailStatus := settled.emailStatus }
    result := settled.outcome.result
    code := settled.code
    errorClass := settled.errorClass
    completedAt := some settled.completedAt
    updatedAt := settled.completedAt }

def Counts.add (counts : Counts) : Outcome → Counts
  | .success => { counts with success := counts.success + 1 }
  | .refused => { counts with refused := counts.refused + 1 }
  | .notFound => { counts with notFound := counts.notFound + 1 }
  | .failed => { counts with failed := counts.failed + 1 }

def Counts.completed (counts : Counts) : ℕ :=
  counts.success + counts.refused + counts.notFound + counts.failed + counts.skippedCancelled

def requiredPositiveInt (n : ℕ) : Except Raised ℕ :=
  if 0 < n then .ok n else .error .recoveryJobRecordIncomplete

/-- `_final_job_status` -/
def finalJobStatus (counts : Counts) (stopReason : Option StopReason) : Status :=
  if counts.skippedCancelled > 0 then .cancelled
  else if stopReason = some .failureThreshold then .failed
  else if counts.failed ≠ 0 ∨ counts.refused ≠ 0 ∨ counts.notFound ≠ 0 ∨ stopReason.isSome then .completedWithFailures
  else .completed

/-- The loop of `_execute_job` over the targets. -/
def executeTargets (r : Delivery) (job : Job) :
    List (TargetSk × Target) → Counts → Action (Counts × Option StopReason)
  | [], counts => return (counts, none)
  | (sk, target) :: rest, counts => do
    if target.result ≠ .pending then executeTargets r job rest counts
    else
      let currentJob := (← getRecoveryJob r.jobId).getD job
      if currentJob.status = .cancellationRequested then
        updateRecoveryJobTarget r.jobId sk (Target.skip (r.skippedAt sk))
        executeTargets r job rest { counts with skippedCancelled := counts.skippedCancelled + 1 }
      else if r.remainingTimeMs sk < TIME_REMAINING_FLOOR_MS then
        return (counts, some .lambdaTimeRemainingFloor)
      else if ← tryClaimRecoveryJobTarget r.jobId sk (r.attemptedAt sk) then
        match r.execute sk with
        | none => throw .other
        | some settled =>
          updateRecoveryJobTarget r.jobId sk (Target.finish target.snapshot settled)
          let counts := { counts with attempted := counts.attempted + 1 }.add settled.outcome
          let threshold ← Handler.of (requiredPositiveInt job.failureThreshold)
          if counts.failed ≥ threshold then return (counts, some .failureThreshold)
          else executeTargets r job rest counts
      else executeTargets r job rest counts

/-- The totals that a run leaves on the job. -/
def Job.close (targetCount : ℕ) (counts : Counts) (stopReason : Option StopReason) (closedAt : Instant) (job : Job) :
    Job :=
  { job with
    status := finalJobStatus counts stopReason
    counts := counts
    pendingCount := targetCount - counts.completed
    completedAt := some closedAt
    updatedAt := closedAt
    stopReason := stopReason.or job.stopReason }

/-- What `_execute_job` does with a job that it may work on. -/
def workOn (r : Delivery) (job : Job) : Action Ran := do
  let targets ← listAllJobTargets r.jobId
  let (counts, stopReason) ← executeTargets r job targets {}
  updateRecoveryJobStatus r.jobId (Job.close job.targetCount counts stopReason r.closedAt)
  return .ended (finalJobStatus counts stopReason)

/-- The loop of `_cancel_job` over the targets. -/
def skipTargets (r : Delivery) : List (TargetSk × Target) → ℕ → Action ℕ
  | [], skipped => return skipped
  | (sk, target) :: rest, skipped => do
    if target.result = .pending then
      updateRecoveryJobTarget r.jobId sk (Target.skip r.now)
      skipTargets r rest (skipped + 1)
    else skipTargets r rest skipped

def Job.cancel (skipped : ℕ) (cancelledAt : Instant) (job : Job) : Job :=
  { job with
    status := .cancelled
    counts := { job.counts with skippedCancelled := skipped }
    pendingCount := 0
    cancelledAt := some cancelledAt
    completedAt := some cancelledAt
    updatedAt := cancelledAt
    stopReason := some .cancelledBeforeStart }

/-- `_cancel_job` -/
def cancelJob (r : Delivery) : Action Ran := do
  let targets ← listAllJobTargets r.jobId
  let skipped ← skipTargets r targets 0
  updateRecoveryJobStatus r.jobId (Job.cancel skipped r.now)
  return .ended .cancelled

/-- `_execute_job` -/
def executeJob (r : Delivery) : Action Ran := do
  match ← getRecoveryJob r.jobId with
  | none => return .notFound
  | some job =>
    if job.jobTypeOrNone ≠ some r.expectedJobType then return .ignored
    else if job.status = .cancellationRequested then cancelJob r
    else if job.status = .queued then
      if ← tryClaimRecoveryJob r.jobId r.now then workOn r job
      else
        let job := (← getRecoveryJob r.jobId).getD job
        if job.status = .queued ∨ job.status = .running then workOn r job else return .ignored
    else if job.status = .running then workOn r job
    else return .ignored

/-! ## Cancelling and resuming -/

structure Cancellation where
  jobId : String
  operator : String
  requestedAt : Instant

/-- `cancel_recovery_job` -/
def cancelRecoveryJob (r : Cancellation) : Action Unit := do
  match ← getRecoveryJob r.jobId with
  | none => throw .recoveryJobNotFound
  | some job =>
    if job.status = .completed ∨ job.status = .completedWithFailures ∨ job.status = .cancelled ∨ job.status = .failed then
      throw .recoveryJobAlreadyTerminal
    if ← requestRecoveryJobCancellation r.jobId r.operator r.requestedAt then return ()
    else throw .recoveryJobNotCancellable

structure Resume where
  sourceJobId : String
  reason : String
  operator : String
  results : List TargetResult
  maxTargets : ℤ
  previewToken : PreviewToken
  now : Instant
  /-- The identity that the new job is given. -/
  newJobId : String

/-- `_get_resumable_source_job` -/
def getResumableSourceJob (sourceJobId : String) : Action (Job × String) := do
  match ← getRecoveryJob sourceJobId with
  | none => throw .recoveryJobNotFound
  | some job =>
    if job.status ∉ RESUMABLE_SOURCE_STATUSES then throw .sourceRecoveryJobNotTerminal
    match job.jobType with
    | none => throw .sourceRecoveryJobIncomplete
    | some jobType =>
      if job.failureThreshold = 0 then throw .sourceRecoveryJobIncomplete
      if jobType ≠ RESEND_JOB_TYPE ∧ jobType ≠ GENERATION_RETRY_JOB_TYPE then throw .recoveryJobTypeNotResumable
      return (job, jobType)

/-- `_normalized_resume_results`: without duplicates, and in one order. -/
def normalizedResumeResults (results : List TargetResult) : Except Raised (List TargetResult) :=
  let raw := if results = [] then DEFAULT_RESUME_RESULTS else results
  if ∃ result ∈ raw, result ∉ RESUMABLE_TARGET_RESULTS then .error .resumeResultFilterUnsupported
  else .ok (RESUMABLE_TARGET_RESULTS.filter (· ∈ raw))

def boundedTargets (maxTargets : ℤ) : ℕ := min (max 1 maxTargets.toNat) MAX_TARGETS

def resumeTargetPreview (target : TargetSk × Target) : TargetPreview :=
  ⟨target.1.2, target.2.snapshot, target.2.result⟩

/-- `_collect_resume_targets`, from the targets of the source job. -/
def collectResumeTargets (targets : List (TargetSk × Target)) (resultFilters : List TargetResult) (maxTargets : ℤ) :
    List TargetPreview :=
  ((targets.filter fun target => target.2.result ∈ resultFilters).take (boundedTargets maxTargets)).map resumeTargetPreview

def TargetPreview.digested (target : TargetPreview) : Digested :=
  ⟨target.targetId, target.sourceResult, target.snapshot.reportId, target.snapshot.parentId,
    target.snapshot.studentId, target.snapshot.weekStart⟩

/-- `preview_resume_job`: its token, and the targets that would be resumed. -/
def previewResumeJob (sourceJobId reason : String) (results : List TargetResult) (maxTargets : ℤ) :
    Action (PreviewToken × List TargetPreview) := do
  if strip reason.toList = [] then throw .recoveryReasonRequired
  let (_, jobType) ← getResumableSourceJob sourceJobId
  if jobType ≠ RESEND_JOB_TYPE ∧ jobType ≠ GENERATION_RETRY_JOB_TYPE then throw .sourceRecoveryJobIncomplete
  let resultFilters ← Handler.of (normalizedResumeResults results)
  let targets := collectResumeTargets (← listAllJobTargets sourceJobId) resultFilters maxTargets
  return (⟨sourceJobId, jobType, reason, resultFilters, boundedTargets maxTargets,
    targets.map TargetPreview.digested⟩, targets)

def resumedTarget (r : Resume) (preview : TargetPreview) : Target where
  snapshot := preview.snapshot
  sourceJobId := some r.sourceJobId
  sourceTargetResult := some preview.sourceResult
  createdAt := r.now
  updatedAt := r.now

def resumedJob (r : Resume) (token : PreviewToken) (targets : ℕ) : Job where
  jobType := some token.jobType
  status := .queued
  reason := r.reason
  createdBy := r.operator
  createdAt := r.now
  updatedAt := r.now
  sourceJobId := some r.sourceJobId
  resumeResultFilters := token.resultFilters
  targetCount := targets
  pendingCount := targets
  previewToken := some token

/-- `put_recovery_job`, one row after the other. -/
def putTargets (jobId : String) : ℕ → List (String × Target) → Action Unit
  | _, [] => return ()
  | index, (targetId, target) :: rest => do
    updates (.putNew (.target jobId (index, targetId)) target)
    putTargets jobId (index + 1) rest

def putRecoveryJob (jobId : String) (job : Job) (targets : List (String × Target)) : Action Unit := do
  updates (.putNew (.job jobId) job)
  putTargets jobId 0 targets

/-- `create_resume_job`; the worker event of the new job is a delivery of its own. -/
def createResumeJob (r : Resume) : Action Unit := do
  let (token, eligible) ← previewResumeJob r.sourceJobId r.reason r.results r.maxTargets
  if token ≠ r.previewToken then throw .recoveryPreviewStale
  if eligible = [] then throw .recoveryJobNoEligibleTargets
  let targets := collectResumeTargets (← listAllJobTargets r.sourceJobId) token.resultFilters r.maxTargets
  putRecoveryJob r.newJobId (resumedJob r token targets.length)
    (targets.map fun target => (target.targetId, resumedTarget r target))

/-! ## The service -/

inductive Call where
  | run (r : Delivery)
  | cancel (r : Cancellation)
  | resume (r : Resume)

/-- Runs, cancellations and resumptions, in any number. A write that fails otherwise than by
its condition is raised, and what raises out of a run takes no more steps. -/
def service : Service Key Item Call (Except Raised (Option Ran)) where
  body
    | .run r => (some <$> executeJob r).run
    | .cancel r => ((fun _ => none) <$> cancelRecoveryJob r).run
    | .resume r => ((fun _ => none) <$> createResumeJob r).run
  mayStart := fun _ _ => True
  drift := fun t t' => t' = t
  faults := ⟨True, False, False⟩

end Stoa.RecoveryJob
