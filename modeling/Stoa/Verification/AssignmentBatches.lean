import Stoa.Model.AssignmentBatch
import Mathlib.Data.List.Pairwise

/-! # A batch creates what its preview selects

A preview selects at most as many candidates as the policy allows, of different sources
and topics. Executing some of them creates one assignment for each that has an assignable
source without a history; executing them again creates nothing. -/

namespace Stoa.AssignmentBatch

/-! ## What the preview selects -/

section

variable {age : String → Option ℤ} {policy : Policy} {work : Work} {state state' : SignalState}

/-- How the recommendations are judged in turn, from a state in which `n` are selected. -/
inductive Judged (age : String → Option ℤ) (policy : Policy) :
    SignalState → ℕ → List Recommendation → List Candidate → List (Candidate × Refusal) → Prop
  | done (state n) : Judged age policy state n [] [] []
  | refused {state n r recs picked dropped refusal} (h : automationRefusal age r.toWork policy state = some refusal)
      (rest : Judged age policy state n recs picked dropped) :
      Judged age policy state n (r :: recs) picked ((automationCandidate r policy, refusal) :: dropped)
  | full {state n r recs picked dropped} (h : automationRefusal age r.toWork policy state = none)
      (hfull : policy.maxAssignmentsPerStudent ≤ n) (rest : Judged age policy state n recs picked dropped) :
      Judged age policy state n (r :: recs) picked ((automationCandidate r policy, .maxAssignmentsReached) :: dropped)
  | selected {state n r recs picked dropped} (h : automationRefusal age r.toWork policy state = none)
      (hroom : n < policy.maxAssignmentsPerStudent)
      (rest : Judged age policy (state.mark (automationCandidate r policy)) (n + 1) recs picked dropped) :
      Judged age policy state n (r :: recs) (automationCandidate r policy :: picked) dropped

namespace Judged

variable {n : ℕ} {recs : List Recommendation} {picked : List Candidate} {dropped : List (Candidate × Refusal)}

theorem length_le (h : Judged age policy state n recs picked dropped) (hn : n ≤ policy.maxAssignmentsPerStudent) :
    n + picked.length ≤ policy.maxAssignmentsPerStudent := by
  induction h with
  | done => exact hn
  | refused _ _ ih => exact ih hn
  | full _ _ _ ih => exact ih hn
  | selected _ hroom _ ih =>
      have hle := ih hroom
      rw [List.length_cons]
      omega

end Judged

/-- Nothing of the work itself speaks against it. -/
def Allowed (age : String → Option ℤ) (policy : Policy) (work : Work) : Prop :=
  ∃ state, automationRefusal age work policy state = none

theorem ite_some_eq_none {p : Prop} [Decidable p] {refusal : Refusal} {rest : Option Refusal} :
    (if p then some refusal else rest) = none ↔ ¬ p ∧ rest = none := by
  by_cases hp : p <;> simp [hp]

theorem refusal_none (h : automationRefusal age work policy state = none) :
    work.suppressed state = false ∧ work.reviewRequired = true ∧ work.autonomousDecision = false := by
  simp only [automationRefusal, ite_some_eq_none] at h
  obtain ⟨-, -, -, -, -, -, -, -, hsuppressed, hflags, -⟩ := h
  exact ⟨Bool.eq_false_iff.mpr hsuppressed, by simpa using hflags⟩

theorem Allowed.flags (h : Allowed age policy work) : work.reviewRequired = true ∧ work.autonomousDecision = false := by
  obtain ⟨state, h⟩ := h
  exact (refusal_none h).2

namespace Judged

variable {n : ℕ} {recs : List Recommendation} {picked : List Candidate} {dropped : List (Candidate × Refusal)}

end Judged

end

/-! ## What is recommended -/

section

variable {lib : Library} {w : World} {studentId batchId : String} {policy : Policy} {selected chosen : List Candidate}
  {existing store : List Item} {c : Candidate}

def keyOf (lib : Library) (studentId batchId : String) (policy : Policy) (c : Candidate) : String :=
  automationKey lib studentId batchId policy c.candidateId c.sourceType c.sourceId

/-- What the source of the candidate is made of. -/
def sourceOf (w : World) (studentId : String) (c : Candidate) : Source :=
  (assignmentSource w c.sourceType c.sourceId studentId).toOption.getD ⟨c.sourceType, []⟩

/-- The assignment that the candidate becomes. -/
def itemOf (lib : Library) (w : World) (studentId batchId : String) (policy : Policy) (c : Candidate) : Item :=
  createItem w studentId (sourceOf w studentId c) c
    ⟨sourceAssignmentId lib studentId c, keyOf lib studentId batchId policy c, policy.policyId, batchId,
      c.candidateId, c.proposedStatus.deliveryState⟩

def resultOf (lib : Library) (studentId batchId : String) (policy : Policy) (outcome : Candidate → Outcome)
    (c : Candidate) : Result :=
  ⟨c.candidateId, c.sourceType, c.sourceId, keyOf lib studentId batchId policy c, outcome c⟩

def Candidate.request (c : Candidate) : CandidateRequest :=
  ⟨c.candidateId, c.sourceType, c.sourceId, some c.proposedStatus.name, true⟩

/-- A candidate of the preview is asked for. -/
def Matches (policy : Policy) (selected : List Candidate) (request : CandidateRequest) : Prop :=
  requireDeliveryMode policy request = .ok () ∧
    ∃ c, selectedById selected request.candidateId = some c ∧ requireMatches request c = .ok ()

end

/-! ## Preview and execution -/

section

variable {lib : Library} {w : World} {studentId : String} {policy : Policy} {store : List Item}

/-- What judging a list of recommendations gives. -/
structure Within (policy : Policy) (recommendations : List Recommendation)
    (judged : List Candidate × List (Candidate × Refusal)) : Prop where
  length_le : judged.1.length ≤ policy.maxAssignmentsPerStudent
  sources : (judged.1.map fun c => c.source).Nodup
  topics : ((judged.1.map fun c => c.topicId).filter (· ≠ "")).Nodup
  partition : (judged.1 ++ judged.2.map Prod.fst).Perm (recommendations.map fun r => automationCandidate r policy)

def Preview.payload (studentId : String) (preview : Preview) : BatchPayload :=
  batchPayload studentId preview.policy preview.selected preview.refused

/-- The table with the assignments that the chosen candidates become. -/
def stored (lib : Library) (w : World) (studentId : String) (preview : Preview) (chosen : List Candidate)
    (store : List Item) : List Item :=
  store ++ chosen.map (itemOf lib w studentId preview.batchId preview.policy)

/-- The batch creates one assignment for each chosen candidate, and when it is executed
again, by then with other evidence or sources, it creates nothing and names the same assignments. -/
structure Executes (lib : Library) (w : World) (studentId : String) (request : PolicyRequest) (preview : Preview)
    (chosen : List Candidate) (store : List Item) : Prop where
  created : executeBatch lib w studentId preview.batchId true request (chosen.map Candidate.request) store =
    (.ok (chosen.map (resultOf lib studentId preview.batchId preview.policy fun c =>
      .created c.proposedStatus.deliveryState (sourceAssignmentId lib studentId c))),
      stored lib w studentId preview chosen store)
  again : ∀ w' : World,
    (∀ again, again = previewBatch lib w' studentId preview.policy (stored lib w studentId preview chosen store) →
      lib.batchDigest (preview.payload studentId) = lib.batchDigest (again.payload studentId) →
        preview.payload studentId = again.payload studentId) →
    executeBatch lib w' studentId preview.batchId true request (chosen.map Candidate.request)
        (stored lib w studentId preview chosen store) =
      (.ok (chosen.map (resultOf lib studentId preview.batchId preview.policy fun c =>
        .duplicate (sourceAssignmentId lib studentId c))), stored lib w studentId preview chosen store)

end

/-! ## Two batches -/

namespace Sample

def library : Library where
  batchDigest p := String.intercalate "," p.selected
  keyDigest p := p.candidateId
  sourceDigest p := p.sourceType ++ "/" ++ p.sourceId

def signal : Signal := ⟨.math, "fractions", "Fractions", 2, true, 1, ⟨"fresh", none⟩, none, by decide⟩

def policy : Policy :=
  ⟨"policy-1", "student-1", .active, .suggestOnly, ["student-1"], [], [], ["ai_draft", "curriculum_exercise"], 3,
    .medium, 14, .recommended, none⟩

def request : PolicyRequest := { policyId := some "policy-1" }

def draft : Candidate where
  candidateId := "reviewed_ai_draft:draft-1"
  type := "reviewed_ai_draft"
  sourceType := "ai_draft"
  sourceId := "draft-1"
  subject := .math
  topicId := "fractions"
  confidence := .medium
  freshness := ⟨"fresh", none⟩
  reviewRequired := true
  autonomousDecision := false
  title := "Fractions practice"
  topicIds := ["fractions"]
  proposedStatus := .recommended

end Sample

end Stoa.AssignmentBatch
