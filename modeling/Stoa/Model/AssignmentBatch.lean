import Stoa.Model.Assignment
import Stoa.Data.OrderedDict
import Mathlib.Data.List.Dedup
import Mathlib.Data.List.Sort

/-! # Batches of assignments

A preview judges what the evidence on a student recommends, and selects up to as many
candidates as the policy allows. The batch that it names is then executed: each approved
candidate of the preview becomes one assignment. -/

namespace Stoa.AssignmentBatch

open Assignment (Status)

inductive Violation where
  | batchApprovalRequired
  | batchCandidatesRequired
  | batchPreviewStale
  | candidateNotInPreview
  | candidatePreviewMismatch
  | candidateStatusMismatch
  | automationSourceTypeUnsupported
  | automationSourceTypeRequired
  | policyValueUnsupported
  | policyValueBlank
  | assignmentSourceNotFound
  | aiDraftNotAssignable
  | draftOfAnotherStudent
  | assignmentSourceTypeUnsupported
  deriving DecidableEq

/-! ## Policies -/

inductive AutonomyLevel where
  | off
  | suggestOnly
  | teacherApprovedBatch
  | autoCreateReviewed
  | futureAutoDeliver
  deriving DecidableEq

def AUTOMATION_LEVELS : List (String × AutonomyLevel) :=
  [("off", .off), ("suggest_only", .suggestOnly), ("teacher_approved_batch", .teacherApprovedBatch),
    ("auto_create_reviewed", .autoCreateReviewed), ("future_auto_deliver", .futureAutoDeliver)]

inductive PolicyStatus where
  | active
  | paused
  | off
  deriving DecidableEq

def POLICY_STATUSES : List (String × PolicyStatus) := [("active", .active), ("paused", .paused), ("off", .off)]

/-- The statuses in which an assignment may be created. -/
inductive DeliveryMode where
  | draft
  | recommended
  | assigned
  deriving DecidableEq

def AUTOMATION_DELIVERY_MODES : List (String × DeliveryMode) :=
  [("draft", .draft), ("recommended", .recommended), ("assigned", .assigned)]

def DeliveryMode.name : DeliveryMode → String
  | .draft => "draft"
  | .recommended => "recommended"
  | .assigned => "assigned"

def DeliveryMode.status : DeliveryMode → Status
  | .draft => .draft
  | .recommended => .recommended
  | .assigned => .assigned

/-- `_automation_delivery_state` -/
def DeliveryMode.deliveryState : DeliveryMode → String
  | .draft => "created"
  | .recommended => "delivered"
  | .assigned => "assigned"

inductive Confidence where
  | low
  | medium
  | high
  deriving DecidableEq

def CONFIDENCE_NAMES : List (String × Confidence) := [("low", .low), ("medium", .medium), ("high", .high)]

def Confidence.rank : Confidence → ℕ
  | .low => 1
  | .medium => 2
  | .high => 3

def AUTOMATION_SOURCE_TYPES : List String := ["ai_draft", "curriculum_exercise", "memory_snapshot", "curriculum_topic"]

def STALE_AFTER_DAYS : ℕ := 14

/-- What a caller gives of a policy. A `null` for a text reads as "None". -/
structure PolicyRequest where
  policyId : Option String := none
  status : Option String := none
  autonomyLevel : Option String := none
  studentIds : Option (List String) := none
  subjectIds : Option (List String) := none
  topicIds : Option (List String) := none
  sourceTypes : Option (List String) := none
  maxAssignmentsPerStudent : Option ℤ := none
  confidenceThreshold : Option String := none
  freshnessDays : Option ℤ := none
  deliveryMode : Option String := none
  pausedReason : Option String := none

structure Policy where
  policyId : String
  targetStudentId : String
  status : PolicyStatus
  autonomyLevel : AutonomyLevel
  studentIds : List String
  subjectIds : List String
  topicIds : List String
  sourceTypes : List String
  maxAssignmentsPerStudent : ℕ
  confidenceThreshold : Confidence
  freshnessDays : ℕ
  deliveryMode : DeliveryMode
  pausedReason : Option String
  deriving DecidableEq

/-- `_choice` -/
def choice {α : Type} (allowed : List (String × α)) (value : String) : Except Violation α :=
  match allowed.lookup value with
  | some a => .ok a
  | none => .error .policyValueUnsupported

/-- `_string_list` of a list that may hold blank items. -/
def stringList (value : Option (List String)) : List String := (value.getD []).filter (· ≠ "")

/-- `_positive_int` -/
def positiveInt (value : Option ℤ) (default : ℕ) : ℕ :=
  match value with
  | none => default
  | some n => (max n 1).toNat

/-- `_clean_note` -/
def cleanNote (note : Option String) : Option String :=
  (note.map fun text => String.ofList ((strip text.toList).take 500)).filter (· ≠ "")

/-- The source types of a policy, as a sorted list without repetition. -/
def policySourceTypes (requested : Option (List String)) : Except Violation (List String) :=
  if (requested.getD []).any fun item => String.ofList (strip item.toList) = "" then .error .policyValueBlank
  else if (stringList requested).any fun item => item ∉ AUTOMATION_SOURCE_TYPES then
    .error .automationSourceTypeUnsupported
  else match requested with
    | none => .ok ["ai_draft", "curriculum_exercise"]
    | some _ =>
      if (stringList requested).isEmpty then .error .automationSourceTypeRequired
      else .ok ((stringList requested).dedup.insertionSort (· ≤ ·))

/-- `_automation_policy` -/
def automationPolicy (policy : PolicyRequest) (studentId : String) : Except Violation Policy := do
  let autonomyLevel ← choice AUTOMATION_LEVELS (policy.autonomyLevel.getD "suggest_only")
  let status ← choice POLICY_STATUSES (policy.status.getD "active")
  let sourceTypes ← policySourceTypes policy.sourceTypes
  let confidenceThreshold ← choice CONFIDENCE_NAMES (policy.confidenceThreshold.getD "medium")
  let deliveryMode ← choice AUTOMATION_DELIVERY_MODES (policy.deliveryMode.getD "recommended")
  let studentIds := stringList policy.studentIds
  return {
    policyId := policy.policyId.getD ("policy-" ++ studentId)
    targetStudentId := studentId
    status := if autonomyLevel = .off then .off else status
    autonomyLevel := autonomyLevel
    studentIds := if studentIds.isEmpty then [studentId] else studentIds
    subjectIds := stringList policy.subjectIds
    topicIds := stringList policy.topicIds
    sourceTypes := sourceTypes
    maxAssignmentsPerStudent := positiveInt policy.maxAssignmentsPerStudent 3
    confidenceThreshold := confidenceThreshold
    freshnessDays := positiveInt policy.freshnessDays STALE_AFTER_DAYS
    deliveryMode := deliveryMode
    pausedReason := cleanNote policy.pausedReason }

/-! ## Assignments and their signals -/

/-- `_automation_assignment_metadata` -/
structure Automation where
  assignmentId : String
  automationKey : String
  policyId : String
  batchId : String
  candidateId : String
  deliveryState : String
  deriving DecidableEq

structure Item where
  assignmentId : String
  studentId : String
  status : Status
  sourceType : String
  sourceId : String
  topicIds : List String
  automationKey : Option String := none
  automation : Option Automation := none
  createdAt : String
  deriving DecidableEq

/-- `list_assignments`, of every status, the latest first. -/
def listAssignments (studentId : String) (store : List Item) : List Item :=
  (store.filter fun item => item.studentId = studentId).insertionSort fun a b => b.createdAt ≤ a.createdAt

/-- The sets of `_assignment_signal_state`. -/
structure SignalState where
  activeTopics : List String
  skippedTopics : List String
  suppressedSources : List (String × String)

def Status.isActive : Status → Bool
  | .recommended | .assigned | .started => true
  | _ => false

def Status.suppresses : Status → Bool
  | .recommended | .assigned | .started | .completed | .archived => true
  | _ => false

def Item.namedTopics (item : Item) : List String := item.topicIds.filter (· ≠ "")

/-- `_assignment_signal_state` -/
def assignmentSignalState (assignments : List Item) : SignalState where
  activeTopics := (assignments.filter fun item => Status.isActive item.status).flatMap Item.namedTopics
  skippedTopics := (assignments.filter fun item => item.status = .skipped).flatMap Item.namedTopics
  suppressedSources := (assignments.filter fun item => Status.suppresses item.status).map fun item =>
    (item.sourceType, item.sourceId)

/-! ## What the evidence recommends -/

/-- The keys of `SUPPORTED_SUBJECTS`. -/
inductive Subject where
  | math
  | physics
  | german
  | english
  deriving DecidableEq

def Subject.id : Subject → String
  | .math => "math"
  | .physics => "physics"
  | .german => "german"
  | .english => "english"

structure Freshness where
  status : String
  lastEvidenceAt : Option String
  deriving DecidableEq

/-- A topic of `_sequencing_signal_index`; only topics with a name are taken up there. -/
structure Signal where
  subject : Subject
  topicId : String
  label : String
  weakTopicCount : ℕ
  snapshotWeak : Bool
  mistakeAttempts : ℕ
  freshness : Freshness
  latestEvidenceAt : Option String
  named : topicId ≠ ""

structure Exercise where
  id : String
  prompt : String
  title : String

/-- An accepted draft of an exercise for the student. -/
structure ReviewedDraft where
  draftId : String
  subject : Subject
  topicIds : List String
  title : String

structure Snapshot where
  subject : Subject
  topicId : String
  freshness : Freshness
  lastUpdatedAt : String

/-- What is known of a student, for the subject that was asked for. -/
structure Evidence where
  signals : List Signal
  exercises : Subject → String → List Exercise
  drafts : List ReviewedDraft
  snapshots : List Snapshot

inductive CandidateType where
  | remediationTopic
  | curriculumExercise
  | reviewedAiDraft
  | continuationLesson
  deriving DecidableEq

def CandidateType.name : CandidateType → String
  | .remediationTopic => "remediation_topic"
  | .curriculumExercise => "curriculum_exercise"
  | .reviewedAiDraft => "reviewed_ai_draft"
  | .continuationLesson => "continuation_lesson"

def CandidateType.sourceType : CandidateType → String
  | .remediationTopic => "memory_snapshot"
  | .curriculumExercise => "curriculum_exercise"
  | .reviewedAiDraft => "ai_draft"
  | .continuationLesson => "curriculum_topic"

/-- What a recommendation and a candidate of a batch have in common. -/
structure Work where
  candidateId : String
  type : String
  sourceType : String
  sourceId : String
  subject : Subject
  topicId : String
  confidence : Confidence
  freshness : Freshness
  reviewRequired : Bool
  autonomousDecision : Bool
  deriving DecidableEq

def Work.source (work : Work) : String × String := (work.sourceType, work.sourceId)

structure Recommendation extends Work where
  label : String
  deriving DecidableEq

structure Scored extends Recommendation where
  score : ℤ

/-- `_confidence_bucket` -/
def confidenceBucket (score : ℤ) : Confidence :=
  if 85 ≤ score then .high else if 60 ≤ score then .medium else .low

/-- The first of two texts that is there and is not empty. -/
def firstText (a b : Option String) : Option String := (a.filter (· ≠ "")).or b

/-- `_candidate` -/
def candidate (type : CandidateType) (sourceId : String) (signal : Signal) (label : String) (score : ℤ) : Scored where
  candidateId := type.name ++ ":" ++ sourceId
  type := type.name
  sourceType := type.sourceType
  sourceId := sourceId
  subject := signal.subject
  topicId := signal.topicId
  confidence := confidenceBucket score
  freshness := ⟨signal.freshness.status, firstText signal.freshness.lastEvidenceAt signal.latestEvidenceAt⟩
  reviewRequired := true
  autonomousDecision := false
  label := label
  score := score

/-- `_remediation_candidate` -/
def remediationCandidate (signal : Signal) (state : SignalState) : Scored :=
  candidate .remediationTopic (signal.subject.id ++ ":" ++ signal.topicId) signal signal.label
    (50 + signal.weakTopicCount * 6 + signal.mistakeAttempts * 4 + (if signal.snapshotWeak then 8 else 0) -
      if signal.topicId ∈ state.skippedTopics then 12 else 0)

def textOr (text default : String) : String := if text = "" then default else text

/-- `_curriculum_exercise_candidates` -/
def curriculumExerciseCandidates (evidence : Evidence) (signal : Signal) (state : SignalState) : List Scored :=
  (((evidence.exercises signal.subject signal.topicId).take 2).filter fun exercise => exercise.id ≠ "").map
    fun exercise =>
      candidate .curriculumExercise exercise.id signal
        (textOr exercise.prompt (textOr exercise.title signal.label))
        (64 + signal.weakTopicCount * 6 + signal.mistakeAttempts * 4 -
          if signal.topicId ∈ state.skippedTopics then 10 else 0)

/-- `_reviewed_draft_candidates` -/
def reviewedDraftCandidates (evidence : Evidence) (signal : Signal) : List Scored :=
  (evidence.drafts.filter fun draft =>
    signal.topicId ∈ draft.topicIds ∧ draft.subject = signal.subject ∧ draft.draftId ≠ "").map fun draft =>
      candidate .reviewedAiDraft draft.draftId signal (textOr draft.title "Reviewed practice exercise")
        (70 + signal.weakTopicCount * 5 + signal.mistakeAttempts * 3)

/-- `_continuation_candidates` -/
def continuationCandidates (evidence : Evidence) (state : SignalState) : List Scored :=
  (evidence.snapshots.findSome? fun snapshot =>
    if h : snapshot.topicId = "" then none
    else if snapshot.topicId ∈ state.activeTopics then none
    else some (candidate .continuationLesson (snapshot.subject.id ++ ":" ++ snapshot.topicId)
      ⟨snapshot.subject, snapshot.topicId, snapshot.topicId, 0, false, 0, snapshot.freshness,
        firstText snapshot.freshness.lastEvidenceAt (some snapshot.lastUpdatedAt), h⟩ snapshot.topicId 30)).toList

/-- `_candidate_suppressed` -/
def Work.suppressed (work : Work) (state : SignalState) : Bool :=
  work.source ∈ state.suppressedSources ∨ work.topicId ∈ state.activeTopics

/-- Of two candidates with one identifier the better one stays. -/
def keepBest (best : OrderedDict String Scored) (c : Scored) : OrderedDict String Scored :=
  match best.get? c.candidateId with
  | none => best.insert c.candidateId c
  | some existing => if existing.score < c.score then best.insert c.candidateId c else best

/-- `_dedupe_candidates` -/
def dedupeCandidates (candidates : List Scored) : List Scored := (candidates.foldl keepBest .empty).values

/-- The greater score first, and of equal ones the lesser identifier. -/
def rankedBefore (a b : Scored) : Prop :=
  b.score < a.score ∨ (a.score = b.score ∧ a.candidateId ≤ b.candidateId)

instance : DecidableRel rankedBefore := fun _ _ => inferInstanceAs (Decidable (_ ∨ _))

/-- `_next_practice_recommendations` -/
def nextPracticeRecommendations (evidence : Evidence) (assignments : List Item) : List Recommendation :=
  let state := assignmentSignalState assignments
  let found := (evidence.signals.filter fun signal => signal.topicId ∉ state.activeTopics).flatMap fun signal =>
    remediationCandidate signal state :: (curriculumExerciseCandidates evidence signal state ++
      reviewedDraftCandidates evidence signal)
  let candidates := if found.isEmpty then continuationCandidates evidence state else found
  (((dedupeCandidates (candidates.filter fun c => !c.suppressed state)).insertionSort rankedBefore).take 5).map
    Scored.toRecommendation

/-! ## The preview -/

inductive Refusal where
  | automationOff
  | policyPaused
  | studentOutOfScope
  | sourceTypeNotAllowed
  | subjectOutOfScope
  | topicOutOfScope
  | lowConfidence
  | staleCandidate
  | duplicateOrActive
  | reviewBoundaryMissing
  | maxAssignmentsReached
  | unsupportedAssignmentSource
  | sourceNotAssignable
  deriving DecidableEq

def Refusal.code : Refusal → String
  | .automationOff => "automation_off"
  | .policyPaused => "policy_paused"
  | .studentOutOfScope => "student_out_of_scope"
  | .sourceTypeNotAllowed => "source_type_not_allowed"
  | .subjectOutOfScope => "subject_out_of_scope"
  | .topicOutOfScope => "topic_out_of_scope"
  | .lowConfidence => "low_confidence"
  | .staleCandidate => "stale_candidate"
  | .duplicateOrActive => "duplicate_or_active"
  | .reviewBoundaryMissing => "review_boundary_missing"
  | .maxAssignmentsReached => "max_assignments_reached"
  | .unsupportedAssignmentSource => "unsupported_assignment_source"
  | .sourceNotAssignable => "source_not_assignable"

/-- `_automation_candidate_stale`; `age` is the age of a time in days, if it can be read. -/
def automationCandidateStale (age : String → Option ℤ) (freshness : Freshness) (freshnessDays : ℕ) : Bool :=
  freshness.status = "stale" ∨
    ((firstText freshness.lastEvidenceAt none).bind age).any fun days => (freshnessDays : ℤ) < days

/-- `_automation_refusal` -/
def automationRefusal (age : String → Option ℤ) (work : Work) (policy : Policy) (state : SignalState) :
    Option Refusal :=
  if policy.status = .off then some .automationOff
  else if policy.status = .paused then some .policyPaused
  else if policy.targetStudentId ∉ policy.studentIds then some .studentOutOfScope
  else if work.sourceType ∉ policy.sourceTypes then some .sourceTypeNotAllowed
  else if policy.subjectIds ≠ [] ∧ work.subject.id ∉ policy.subjectIds then some .subjectOutOfScope
  else if policy.topicIds ≠ [] ∧ work.topicId ∉ policy.topicIds then some .topicOutOfScope
  else if work.confidence.rank < policy.confidenceThreshold.rank then some .lowConfidence
  else if automationCandidateStale age work.freshness policy.freshnessDays then some .staleCandidate
  else if work.suppressed state then some .duplicateOrActive
  else if work.reviewRequired = false ∨ work.autonomousDecision = true then some .reviewBoundaryMissing
  else none

structure Candidate extends Work where
  title : String
  topicIds : List String
  proposedStatus : DeliveryMode
  deriving DecidableEq

/-- `_automation_candidate` -/
def automationCandidate (recommendation : Recommendation) (policy : Policy) : Candidate :=
  { recommendation.toWork with
    reviewRequired := true
    autonomousDecision := false
    title := recommendation.label
    topicIds := if recommendation.topicId = "" then [] else [recommendation.topicId]
    proposedStatus := policy.deliveryMode }

/-- `_mark_automation_candidate_selected` -/
def SignalState.mark (state : SignalState) (c : Candidate) : SignalState :=
  { state with
    suppressedSources := c.source :: state.suppressedSources
    activeTopics := (c.topicIds ++ if c.topicId = "" then [] else [c.topicId]) ++ state.activeTopics }

/-- The loop of `preview_assignment_automation_batch`. -/
def judgeAll (age : String → Option ℤ) (policy : Policy) :
    List Recommendation → SignalState → List Candidate → List (Candidate × Refusal) →
      List Candidate × List (Candidate × Refusal)
  | [], _, selected, refused => (selected, refused)
  | recommendation :: rest, state, selected, refused =>
    let c := automationCandidate recommendation policy
    match automationRefusal age recommendation.toWork policy state with
    | some refusal => judgeAll age policy rest state selected (refused ++ [(c, refusal)])
    | none =>
      if policy.maxAssignmentsPerStudent ≤ selected.length then
        judgeAll age policy rest state selected (refused ++ [(c, .maxAssignmentsReached)])
      else judgeAll age policy rest (state.mark c) (selected ++ [c]) refused

/-- What `_automation_batch_id` makes a digest of. -/
structure BatchPayload where
  studentId : String
  policyId : String
  selected : List String
  refused : List (String × String)
  deriving DecidableEq

/-- What `_automation_key` makes a digest of. -/
structure KeyPayload where
  studentId : String
  batchId : String
  policyId : String
  candidateId : String
  sourceType : String
  sourceId : String
  deriving DecidableEq

/-- What `_automation_source_assignment_id` makes a digest of. -/
structure SourcePayload where
  studentId : String
  sourceType : String
  sourceId : String
  deriving DecidableEq

/-- The first digits of the SHA-1 of a payload. -/
structure Library where
  batchDigest : BatchPayload → String
  keyDigest : KeyPayload → String
  sourceDigest : SourcePayload → String

structure Preview where
  batchId : String
  policy : Policy
  selected : List Candidate
  refused : List (Candidate × Refusal)

def batchPayload (studentId : String) (policy : Policy) (selected : List Candidate)
    (refused : List (Candidate × Refusal)) : BatchPayload where
  studentId := studentId
  policyId := policy.policyId
  selected := selected.map fun c => c.candidateId
  refused := refused.map fun c => (c.1.candidateId, c.2.code)

/-- `_automation_batch_id` -/
def automationBatchId (lib : Library) (studentId : String) (policy : Policy) (selected : List Candidate)
    (refused : List (Candidate × Refusal)) : String :=
  "batch-" ++ lib.batchDigest (batchPayload studentId policy selected refused)

/-! ## Sources -/

structure Challenge where
  topicId : Option String

structure Draft where
  draftType : String
  status : String
  studentId : String
  topicIds : List String

/-- What a call finds: the clock, the evidence and the sources. -/
structure World where
  now : String
  age : String → Option ℤ
  evidence : Evidence
  challenge : String → Option Challenge
  draft : String → Option Draft

structure Source where
  sourceType : String
  topicIds : List String
  deriving DecidableEq

/-- `_assignment_source` -/
def assignmentSource (w : World) (sourceType sourceId studentId : String) : Except Violation Source :=
  if sourceType = "curriculum_exercise" then
    match w.challenge sourceId with
    | none => .error .assignmentSourceNotFound
    | some exercise => .ok ⟨"curriculum_exercise", (exercise.topicId.filter (· ≠ "")).toList⟩
  else if sourceType = "ai_draft" then
    match w.draft sourceId with
    | none => .error .assignmentSourceNotFound
    | some draft =>
      if draft.draftType ≠ "practice_exercise" ∨ draft.status ≠ "accepted" then .error .aiDraftNotAssignable
      else if draft.studentId ≠ studentId then .error .draftOfAnotherStudent
      else .ok ⟨"ai_draft", draft.topicIds⟩
  else .error .assignmentSourceTypeUnsupported

/-- `preview_assignment_automation_batch`, for a policy that was read. -/
def previewBatch (lib : Library) (w : World) (studentId : String) (policy : Policy) (store : List Item) : Preview :=
  let assignments := listAssignments studentId store
  let judged := judgeAll w.age policy (nextPracticeRecommendations w.evidence assignments)
    (assignmentSignalState assignments) [] []
  ⟨automationBatchId lib studentId policy judged.1 judged.2, policy, judged.1, judged.2⟩

/-! ## The execution -/

/-- A candidate as a caller sends it back. -/
structure CandidateRequest where
  candidateId : String
  sourceType : String
  sourceId : String
  proposedStatus : Option String := none
  approved : Bool := true

inductive Outcome where
  | skipped
  | duplicate (assignmentId : String)
  | refused (refusal : Refusal)
  | created (deliveryState assignmentId : String)
  deriving DecidableEq

structure Result where
  candidateId : String
  sourceType : String
  sourceId : String
  automationKey : String
  outcome : Outcome
  deriving DecidableEq

/-- The status that is asked for is that of the policy. -/
def requireDeliveryMode (policy : Policy) (request : CandidateRequest) : Except Violation Unit := do
  let proposed ← choice AUTOMATION_DELIVERY_MODES (textOr (request.proposedStatus.getD "") policy.deliveryMode.name)
  if proposed = policy.deliveryMode then .ok () else .error .candidateStatusMismatch

/-- `_automation_key` -/
def automationKey (lib : Library) (studentId batchId : String) (policy : Policy)
    (candidateId sourceType sourceId : String) : String :=
  "automation-" ++ lib.keyDigest ⟨studentId, batchId, policy.policyId, candidateId, sourceType, sourceId⟩

/-- `_automation_source_assignment_id` -/
def sourceAssignmentId (lib : Library) (studentId : String) (c : Candidate) : String :=
  "assignment-source-" ++ lib.sourceDigest ⟨studentId, c.sourceType, c.sourceId⟩

def Item.hasKey (item : Item) (key : String) : Bool :=
  item.automationKey = some key ∨ item.automation.any fun automation => automation.automationKey = key

/-- `_find_assignment_by_automation_key` -/
def findByKey (assignments : List Item) (key : String) : Option Item := assignments.find? fun item => item.hasKey key

/-- `_find_assignment_by_source` -/
def findBySource (assignments : List Item) (sourceType sourceId : String) : Option Item :=
  assignments.find? fun item => item.sourceType = sourceType ∧ item.sourceId = sourceId

/-- `_create_assignment_item`, of a source that was found. -/
def createItem (w : World) (studentId : String) (source : Source) (c : Candidate) (automation : Automation) : Item where
  assignmentId := automation.assignmentId
  studentId := studentId
  status := c.proposedStatus.status
  sourceType := source.sourceType
  sourceId := c.sourceId
  topicIds := source.topicIds
  automationKey := some automation.automationKey
  automation := some automation
  createdAt := w.now

/-- The sources that a reviewed assignment is made from. -/
def isAssignable (sourceType : String) : Bool := sourceType = "ai_draft" ∨ sourceType = "curriculum_exercise"

/-- `_execute_assignment_automation_candidate`: what becomes of the candidate, and the
assignment that was stored. -/
def executeCandidate (lib : Library) (w : World) (studentId batchId : String) (policy : Policy) (approved : Bool)
    (c : Candidate) (existing store : List Item) : Outcome × Option Item :=
  let key := automationKey lib studentId batchId policy c.candidateId c.sourceType c.sourceId
  if !approved then (.skipped, none)
  else match findByKey existing key with
  | some item => (.duplicate item.assignmentId, none)
  | none =>
    if !isAssignable c.sourceType then (.refused .unsupportedAssignmentSource, none)
    else match findBySource existing c.sourceType c.sourceId with
    | some item => (.duplicate item.assignmentId, none)
    | none =>
      match automationRefusal w.age c.toWork policy (assignmentSignalState existing) with
      | some refusal => (.refused refusal, none)
      | none =>
        match assignmentSource w c.sourceType c.sourceId studentId with
        | .error _ => (.refused .sourceNotAssignable, none)
        | .ok source =>
          let state := c.proposedStatus.deliveryState
          let item := createItem w studentId source c
            ⟨sourceAssignmentId lib studentId c, key, policy.policyId, batchId, c.candidateId, state⟩
          -- The row of an assignment is put only where there is none.
          match store.find? fun stored => stored.assignmentId = item.assignmentId with
          | some stored => (.duplicate stored.assignmentId, none)
          | none => (.created state item.assignmentId, some item)

/-- `selected_by_id`: of equal identifiers the last one stays. -/
def selectedById (selected : List Candidate) (candidateId : String) : Option Candidate :=
  selected.reverse.find? fun c => c.candidateId = candidateId

/-- `_require_candidate_matches_preview`, after the statuses were found equal to that of
the policy. -/
def requireMatches (request : CandidateRequest) (c : Candidate) : Except Violation Unit :=
  if request.sourceType = c.sourceType ∧ request.sourceId = c.sourceId then .ok ()
  else .error .candidatePreviewMismatch

/-- The loop of `execute_assignment_automation_batch`. An assignment that was created
stays when a later candidate raises. -/
def executeAll (lib : Library) (w : World) (studentId batchId : String) (policy : Policy) (selected : List Candidate) :
    List CandidateRequest → List Item → List Item → List Result → Except Violation (List Result) × List Item
  | [], _, store, results => (.ok results, store)
  | request :: rest, existing, store, results =>
    match requireDeliveryMode policy request with
    | .error e => (.error e, store)
    | .ok () =>
      match selectedById selected request.candidateId with
      | none => (.error .candidateNotInPreview, store)
      | some c =>
        match requireMatches request c with
        | .error e => (.error e, store)
        | .ok () =>
          let done := executeCandidate lib w studentId batchId policy request.approved c existing store
          let result : Result := ⟨c.candidateId, c.sourceType, c.sourceId,
            automationKey lib studentId batchId policy c.candidateId c.sourceType c.sourceId, done.1⟩
          executeAll lib w studentId batchId policy selected rest (existing ++ done.2.toList)
            (store ++ done.2.toList) (results ++ [result])

/-- What the replay of a batch says of one candidate; `none` where it was never executed. -/
def replayCandidate (lib : Library) (studentId batchId : String) (policy : Policy) (existing : List Item)
    (request : CandidateRequest) : Option Result :=
  let key := automationKey lib studentId batchId policy request.candidateId request.sourceType request.sourceId
  let result : Outcome → Result := fun outcome =>
    ⟨request.candidateId, request.sourceType, request.sourceId, key, outcome⟩
  match findByKey existing key with
  | some item => some (result (.duplicate item.assignmentId))
  | none =>
    if !request.approved then some (result .skipped)
    else if !isAssignable request.sourceType then some (result (.refused .unsupportedAssignmentSource))
    else (findBySource existing request.sourceType request.sourceId).map fun item =>
      result (.duplicate item.assignmentId)

/-- `_automation_duplicate_replay` -/
def duplicateReplay (lib : Library) (studentId batchId : String) (policy : Policy) (existing : List Item) :
    List CandidateRequest → Except Violation (Option (List Result))
  | [] => .ok (some [])
  | request :: rest =>
    match requireDeliveryMode policy request with
    | .error e => .error e
    | .ok () =>
      match replayCandidate lib studentId batchId policy existing request with
      | none => .ok none
      | some result =>
        match duplicateReplay lib studentId batchId policy existing rest with
        | .error e => .error e
        | .ok results => .ok (results.map (result :: ·))

/-- `execute_assignment_automation_batch`: the results, and the table after the call. -/
def executeBatch (lib : Library) (w : World) (studentId batchId : String) (approved : Bool) (policy : PolicyRequest)
    (candidates : List CandidateRequest) (store : List Item) : Except Violation (List Result) × List Item :=
  if !approved then (.error .batchApprovalRequired, store)
  else if candidates.isEmpty then (.error .batchCandidatesRequired, store)
  else match automationPolicy policy studentId with
  | .error e => (.error e, store)
  | .ok policy =>
    let existing := listAssignments studentId store
    let preview := previewBatch lib w studentId policy store
    if batchId ≠ preview.batchId then
      match duplicateReplay lib studentId batchId policy existing candidates with
      | .error e => (.error e, store)
      | .ok (some results) => (.ok results, store)
      | .ok none => (.error .batchPreviewStale, store)
    else executeAll lib w studentId batchId policy preview.selected candidates existing store []

end Stoa.AssignmentBatch
