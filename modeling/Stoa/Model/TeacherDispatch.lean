import Stoa.Model.AccountFence
import Mathlib.Algebra.Order.Ring.Rat
import Mathlib.Data.List.Sort

/-! # Teacher dispatch

Which teacher a help request is offered to: the ranking of the teachers who
could take it now, and the reason where there is none. -/

namespace Stoa.TeacherDispatch

def DISPATCH_ACCEPT_TIMEOUT_SECONDS : ℤ := 10 * 60

def ELIGIBLE_ROLES : List String := ["teacher", "admin"]

def AVAILABLE_STATES : List String := ["available", "active", "online", "ready"]

def PAUSED_STATES : List String := ["paused", "offline", "busy", "disabled", "inactive"]

/-- What dispatch takes from outside: lower case, and the number that is rounded
from a load, the penalty of its answers and that of its last offer. -/
structure Env where
  lower : String → String
  score : ℤ → ℤ → ℤ → ℤ → ℚ

/-! ## Profiles -/

/-- A stored profile. A field that is not stored is none, `""` or `[]`. -/
structure ProfileRow where
  userId : String
  role : String
  accountStatus : String
  version : ℤ
  dispatchSubjects : List String := []
  primarySubjects : List String := []
  subjects : List String := []
  subjectIds : List String := []
  dispatchAvailability : String := ""
  availabilityStatus : String := ""
  teacherStatus : String := ""
  dispatchActiveCount : Option ℤ := none
  activeSessionCount : Option ℤ := none
  max_active_sessions : Option ℤ := none
  maxActiveSessions : Option ℤ := none
  recentSlaBucket : String := ""
  teacherFirstReplySlaBucket : String := ""
  lastDispatchedAt : Option Instant := none
  dispatchLastDispatchedAt : Option Instant := none

def stripped (text : String) : String := String.ofList (strip text.toList)

/-- `practice_repo.normal_subject_id` -/
def normalSubjectId (env : Env) (subjectId : String) : String :=
  match env.lower (stripped subjectId) with
  | "mathematics" => "math"
  | "mathematik" => "math"
  | "deutsch" => "german"
  | "englisch" => "english"
  | value => value

/-- `user_repo.stored_teacher_subjects`: the first field that holds one. -/
def storedTeacherSubjects (profile : ProfileRow) : List String :=
  let fields := [profile.dispatchSubjects, profile.primarySubjects, profile.subjects,
    profile.subjectIds]
  let held := fields.map fun items => (items.map stripped).filter (· ≠ "")
  (held.find? (· ≠ [])).getD []

/-- `user_repo.stored_teacher_availability` -/
def storedTeacherAvailability (profile : ProfileRow) : Option String :=
  [profile.dispatchAvailability, profile.availabilityStatus, profile.teacherStatus].find? (· ≠ "")

/-- `a or b`, for numbers. -/
def orInt (a b : Option ℤ) : Option ℤ :=
  match a with
  | some n => if n = 0 then b else some n
  | none => b

/-- `a or b`, for texts. -/
def orText (a b : String) : String := if a = "" then b else a

structure Teacher where
  teacherId : String
  role : String
  accountStatus : String
  profileVersion : ℤ
  accountFenceGeneration : ℤ
  subjects : List String
  availability : String
  maxActiveSessions : ℤ
  activeCount : ℤ
  recentSlaBucket : String
  lastDispatchedAt : Option Instant

/-- `_normalize_teacher_profile`; the generation has been read with the profile,
or is 0. -/
def normalizeTeacherProfile (env : Env) (profile : ProfileRow) (generation : ℤ) : Teacher where
  teacherId := profile.userId
  role := env.lower profile.role
  accountStatus := env.lower profile.accountStatus
  profileVersion := profile.version
  accountFenceGeneration := generation
  subjects := (storedTeacherSubjects profile).map (normalSubjectId env)
  availability := env.lower ((storedTeacherAvailability profile).getD "unavailable")
  maxActiveSessions :=
    max 1 ((orInt profile.max_active_sessions profile.maxActiveSessions).getD 3)
  activeCount := max 0 ((orInt profile.dispatchActiveCount profile.activeSessionCount).getD 0)
  recentSlaBucket :=
    orText profile.recentSlaBucket (orText profile.teacherFirstReplySlaBucket "unknown")
  lastDispatchedAt := profile.lastDispatchedAt.or profile.dispatchLastDispatchedAt

/-- What `eligible_profile` of `list_teacher_profiles` asks of a profile, before it
reads the fence. -/
def isEligible (env : Env) (profile : ProfileRow) : Bool :=
  profile.userId ≠ "" ∧ env.lower profile.role ∈ ELIGIBLE_ROLES ∧
    profile.accountStatus = "active" ∧ 0 < profile.version

/-! ## Refusals -/

inductive Refusal where
  | missingTeacherId
  | roleNotEligible
  | inactiveAccount
  | lifecycleObservationMissing
  | paused
  | notAvailable
  | maxActiveSessions
  | previouslyTimedOut
  | subjectMismatch
  | missingSubjectCapability
  deriving DecidableEq, Repr

namespace Refusal

/-- `refusalCode` -/
def code : Refusal → String
  | missingTeacherId => "missing_teacher_id"
  | roleNotEligible => "role_not_eligible"
  | inactiveAccount => "inactive_account"
  | lifecycleObservationMissing => "lifecycle_observation_missing"
  | paused => "not_available"
  | notAvailable => "not_available"
  | maxActiveSessions => "max_active_sessions"
  | previouslyTimedOut => "previously_timed_out"
  | subjectMismatch => "subject_mismatch"
  | missingSubjectCapability => "missing_subject_capability"

/-- `refusalReason` -/
def reason : Refusal → String
  | missingTeacherId => "Teacher profile has no stable ID."
  | roleNotEligible => "Profile role cannot receive teacher dispatch."
  | inactiveAccount => "Teacher account is not active."
  | lifecycleObservationMissing => "Teacher lifecycle state could not be safely observed."
  | paused => "Teacher is paused, offline, busy, or inactive."
  | notAvailable => "Teacher is not marked available for dispatch."
  | maxActiveSessions => "Teacher is at maximum active session load."
  | previouslyTimedOut => "Teacher already timed out or declined this request."
  | subjectMismatch => "Teacher subject capability does not match the question."
  | missingSubjectCapability => "Teacher profile has no dispatch subject capability."

end Refusal

/-- Why this teacher can take no request at all now, if they cannot. -/
def standingRefusal (teacher : Teacher) : Option Refusal :=
  if teacher.teacherId = "" then some .missingTeacherId
  else if teacher.role ∉ ELIGIBLE_ROLES then some .roleNotEligible
  else if teacher.accountStatus ≠ "active" then some .inactiveAccount
  else if teacher.profileVersion ≤ 0 ∨ teacher.accountFenceGeneration ≤ 0 then
    some .lifecycleObservationMissing
  else if teacher.availability ∈ PAUSED_STATES then some .paused
  else if teacher.availability ∉ AVAILABLE_STATES then some .notAvailable
  else if teacher.activeCount ≥ teacher.maxActiveSessions then some .maxActiveSessions
  else none

/-- What is planned for: the subject, and the teachers it must not be offered to. -/
structure Question where
  questionId : String
  subject : String
  previous : List String

def refusalReason (env : Env) (question : Question) (teacher : Teacher) : Option Refusal :=
  match standingRefusal teacher with
  | some refusal => some refusal
  | none =>
    if teacher.teacherId ∈ question.previous then some .previouslyTimedOut
    else if teacher.subjects ≠ [] ∧ normalSubjectId env question.subject ∉ teacher.subjects then
      some .subjectMismatch
    else if teacher.subjects = [] then some .missingSubjectCapability
    else none

/-! ## Ranking -/

def slaPenalty (bucket : String) : ℤ :=
  match bucket with
  | "within_target" => 0
  | "at_risk" => 1
  | "unknown" => 2
  | "breached" => 3
  | _ => 2

def MINUTE : ℤ := 60 * 1000000

/-- `_recency_penalty` -/
def recencyPenalty (dispatchedAt : Option Instant) (now : Instant) : ℤ :=
  match dispatchedAt with
  | none => 0
  | some dispatchedAt =>
    let ageMinutes := max 0 ((now - dispatchedAt) / MINUTE)
    max 0 (60 - min ageMinutes 60)

/-- `_candidate_payload`: a teacher and the score they are ranked by, least first. -/
structure Candidate extends Teacher where
  rankScore : ℚ

def candidatePayload (env : Env) (now : Instant) (teacher : Teacher) : Candidate where
  toTeacher := teacher
  rankScore := env.score teacher.activeCount teacher.maxActiveSessions
    (slaPenalty teacher.recentSlaBucket) (recencyPenalty teacher.lastDispatchedAt now)

structure Plan where
  questionId : String
  subject : String
  /-- The best first. -/
  selected : List Candidate
  refused : List (Candidate × Refusal)
  generatedAt : Instant

/-- How often each code was given. -/
def refusalCounts (refused : List (Candidate × Refusal)) : List (String × ℕ) :=
  let codes := refused.map fun r => r.2.code
  codes.dedup.map fun code => (code, codes.count code)

/-- `_top_refusal_reason`: the code given most often, the first of these in the
order of texts. -/
def topRefusalReason (refused : List (Candidate × Refusal)) : String :=
  let sorted := (refusalCounts refused).insertionSort fun a b =>
    b.2 < a.2 ∨ (a.2 = b.2 ∧ a.1 ≤ b.1)
  match sorted with
  | [] => "no_teacher_profiles"
  | (code, _) :: _ => code

namespace Plan

def status (plan : Plan) : String := if plan.selected = [] then "no_candidates" else "ready"

/-- `summary["noCandidateReason"]` -/
def noCandidateReason (plan : Plan) : Option String :=
  if plan.selected = [] then some (topRefusalReason plan.refused) else none

end Plan

/-- `plan_dispatch`, for profiles that have been listed with their generations. -/
def planDispatch (env : Env) (question : Question) (profiles : List (ProfileRow × ℤ))
    (now : Instant) : Plan :=
  let candidates := profiles.map fun p =>
    let teacher := normalizeTeacherProfile env p.1 p.2
    (candidatePayload env now teacher, refusalReason env question teacher)
  { questionId := question.questionId
    subject := question.subject
    selected := (candidates.filterMap fun c => if c.2.isNone then some c.1 else none).insertionSort
      fun a b => a.rankScore ≤ b.rankScore
    refused := candidates.filterMap fun c => c.2.map fun refusal => (c.1, refusal)
    generatedAt := now }

/-! ## Availability -/

structure AvailabilitySummary where
  online : Bool
  availableTeachers : ℕ
  responseTime : String
  deriving DecidableEq, Repr

/-- `teacher_availability_summary`, for profiles that have been listed. -/
def teacherAvailabilitySummary (env : Env) (profiles : List (ProfileRow × ℤ)) :
    AvailabilitySummary :=
  let available := (profiles.map fun p => normalizeTeacherProfile env p.1 p.2).filter fun teacher =>
    standingRefusal teacher = none ∧ teacher.subjects ≠ []
  { online := 0 < available.length
    availableTeachers := available.length
    responseTime := if available.length ≠ 0 then "Teacher support is available now."
      else "Teacher support will review requests when a qualified teacher is available." }

/-- `teacher_availability_status` -/
def teacherAvailabilityStatus (env : Env) (profile : ProfileRow) : Option String :=
  let availability := (normalizeTeacherProfile env profile 0).availability
  if availability ∈ AVAILABLE_STATES then some "available"
  else if availability ∈ PAUSED_STATES then some "paused"
  else none

end Stoa.TeacherDispatch
