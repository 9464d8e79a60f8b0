import Stoa.Model.TeacherDispatch
import Mathlib.Data.List.Dedup
import Mathlib.Data.String.Basic

/-! # Who a request is offered to

A plan ranks exactly the teachers who may take the request, and says of every
other one why not. -/

namespace Stoa.TeacherDispatch

variable {env : Env} {question : Question} {profiles : List (ProfileRow × ℤ)} {now : Instant}

/-- The teachers that were listed. -/
def teachers (env : Env) (profiles : List (ProfileRow × ℤ)) : List Teacher :=
  profiles.map fun p => normalizeTeacherProfile env p.1 p.2

/-- The teacher may take this request now. -/
def CanTake (env : Env) (question : Question) (teacher : Teacher) : Prop :=
  standingRefusal teacher = none ∧ teacher.teacherId ∉ question.previous ∧
    normalSubjectId env question.subject ∈ teacher.subjects

instance (env : Env) (question : Question) (teacher : Teacher) :
    Decidable (CanTake env question teacher) :=
  inferInstanceAs (Decidable (_ ∧ _))

/-! ## Refusals -/

theorem refusalReason_eq_none {teacher : Teacher} :
    refusalReason env question teacher = none ↔ CanTake env question teacher := by
  unfold refusalReason CanTake
  cases standingRefusal teacher with
  | some refusal => simp
  | none =>
      by_cases hprevious : teacher.teacherId ∈ question.previous
      · simp [hprevious]
      · by_cases hsubject : normalSubjectId env question.subject ∈ teacher.subjects
        · have hne : teacher.subjects ≠ [] := List.ne_nil_of_mem hsubject
          simp [hprevious, hsubject, hne]
        · by_cases hnil : teacher.subjects = [] <;> simp [hprevious, hsubject, hnil]

/-- A teacher who stands has an identity, an eligible role and a generation. -/
theorem standing_of_refusal {teacher : Teacher} (h : standingRefusal teacher = none) :
    teacher.teacherId ≠ "" ∧ teacher.role ∈ ELIGIBLE_ROLES ∧ 0 < teacher.profileVersion ∧
      0 < teacher.accountFenceGeneration := by
  unfold standingRefusal at h
  split at h
  · cases h
  rename_i hidentity
  split at h
  · cases h
  rename_i hrole
  split at h
  · cases h
  split at h
  · cases h
  rename_i hlifecycle
  rw [not_or, not_le, not_le] at hlifecycle
  exact ⟨hidentity, not_not.mp hrole, hlifecycle⟩

/-! ## The plan -/

theorem selected_perm : ((planDispatch env question profiles now).selected.map Candidate.toTeacher).Perm
    ((teachers env profiles).filter fun teacher => CanTake env question teacher) := by
  have hlist : ∀ ps : List (ProfileRow × ℤ), (((ps.map fun p =>
      (candidatePayload env now (normalizeTeacherProfile env p.1 p.2),
        refusalReason env question (normalizeTeacherProfile env p.1 p.2))).filterMap fun c =>
          if c.2.isNone then some c.1 else none).map Candidate.toTeacher) =
      (teachers env ps).filter fun teacher => CanTake env question teacher := by
    intro ps
    induction ps with
    | nil => rfl
    | cons p ps ih =>
        rw [teachers, List.map_cons, List.map_cons]
        by_cases hnone : refusalReason env question (normalizeTeacherProfile env p.1 p.2) = none
        · have hcan := refusalReason_eq_none.mp hnone
          simp only [List.filterMap_cons, hnone, Option.isNone_none, if_true, List.map_cons, ih]
          rw [List.filter_cons_of_pos (by simpa using hcan)]
          rfl
        · have hcannot : ¬ CanTake env question (normalizeTeacherProfile env p.1 p.2) :=
            fun hcan => hnone (refusalReason_eq_none.mpr hcan)
          rw [List.filterMap_cons_none (by simp [hnone]), ih,
            List.filter_cons_of_neg (by simpa using hcannot)]
          rfl
  rw [← hlist profiles]
  exact (List.perm_insertionSort _ _).map _

theorem mem_selected {candidate : Candidate}
    (h : candidate ∈ (planDispatch env question profiles now).selected) :
    CanTake env question candidate.toTeacher ∧ candidate.toTeacher ∈ teachers env profiles := by
  have hmem := selected_perm.mem_iff.mp (List.mem_map_of_mem (f := Candidate.toTeacher) h)
  rw [List.mem_filter, decide_eq_true_eq] at hmem
  exact ⟨hmem.2, hmem.1⟩

theorem rankScore_of_selected {candidate : Candidate}
    (h : candidate ∈ (planDispatch env question profiles now).selected) :
    candidate = candidatePayload env now candidate.toTeacher := by
  rw [planDispatch, List.mem_insertionSort, List.mem_filterMap] at h
  obtain ⟨c, hc, hsome⟩ := h
  obtain ⟨p, -, rfl⟩ := List.mem_map.mp hc
  split at hsome
  · cases hsome
    rfl
  · cases hsome

/-- Nobody who may take the request is ranked before the first. -/
theorem selected_best {candidate : Candidate} {rest : List Candidate}
    (h : (planDispatch env question profiles now).selected = candidate :: rest) {teacher : Teacher}
    (hteacher : teacher ∈ teachers env profiles) (hcan : CanTake env question teacher) :
    candidate.rankScore ≤ (candidatePayload env now teacher).rankScore := by
  have hsorted : (planDispatch env question profiles now).selected.Pairwise
      fun a b => a.rankScore ≤ b.rankScore := by
    have htotal : Std.Total fun a b : Candidate => a.rankScore ≤ b.rankScore :=
      ⟨fun a b => le_total a.rankScore b.rankScore⟩
    have htrans : IsTrans Candidate fun a b => a.rankScore ≤ b.rankScore := ⟨fun _ _ _ => le_trans⟩
    exact List.pairwise_insertionSort _ _
  have hmem : teacher ∈ (planDispatch env question profiles now).selected.map Candidate.toTeacher :=
    selected_perm.mem_iff.mpr (List.mem_filter.mpr ⟨hteacher, decide_eq_true hcan⟩)
  obtain ⟨other, hother, rfl⟩ := List.mem_map.mp hmem
  rw [← rankScore_of_selected hother]
  rw [h] at hsorted hother
  rcases List.mem_cons.mp hother with rfl | hrest
  · exact le_rfl
  · exact List.rel_of_pairwise_cons hsorted hrest

theorem refused_eq : (planDispatch env question profiles now).refused.map
    (fun r => (r.1.toTeacher, r.2)) =
      (teachers env profiles).filterMap fun teacher =>
        (refusalReason env question teacher).map (teacher, ·) := by
  simp only [planDispatch, teachers, List.filterMap_map, List.map_filterMap]
  refine List.filterMap_congr fun p _ => ?_
  change Option.map _ (Option.map _ (refusalReason env question (normalizeTeacherProfile env p.1 p.2))) = _
  rw [Option.map_map]
  rfl

/-! ## The reason -/

/-- The code is given, and no other is given more often; of those that are given as
often it is the first. -/
def MostGiven (codes : List String) (code : String) : Prop :=
  code ∈ codes ∧ ∀ other ∈ codes, codes.count other < codes.count code ∨
    (codes.count other = codes.count code ∧ code ≤ other)

theorem topRefusalReason_of_sorted {refused : List (Candidate × Refusal)} {top : String × ℕ}
    {rest : List (String × ℕ)} (h : (refusalCounts refused).insertionSort
      (fun a b => b.2 < a.2 ∨ (a.2 = b.2 ∧ a.1 ≤ b.1)) = top :: rest) : topRefusalReason refused = top.1 := by
  unfold topRefusalReason
  rw [h]

theorem topRefusalReason_mostGiven {refused : List (Candidate × Refusal)} (h : refused ≠ []) :
    MostGiven (refused.map fun r => r.2.code) (topRefusalReason refused) := by
  let before : String × ℕ → String × ℕ → Prop := fun a b => b.2 < a.2 ∨ (a.2 = b.2 ∧ a.1 ≤ b.1)
  have htotal : Std.Total before := ⟨fun a b => by
    rcases lt_trichotomy a.2 b.2 with hlt | heq | hgt
    · exact .inr (.inl hlt)
    · rcases le_total a.1 b.1 with hle | hle
      · exact .inl (.inr ⟨heq, hle⟩)
      · exact .inr (.inr ⟨heq.symm, hle⟩)
    · exact .inl (.inl hgt)⟩
  have htrans : IsTrans (String × ℕ) before := ⟨by
    rintro a b c (hab | ⟨hab, hle⟩) (hbc | ⟨hbc, hle'⟩)
    · exact .inl (hbc.trans hab)
    · exact .inl (hbc ▸ hab)
    · exact .inl (hab ▸ hbc)
    · exact .inr ⟨hab.trans hbc, hle.trans hle'⟩⟩
  have hsorted : ((refusalCounts refused).insertionSort before).Pairwise before :=
    List.pairwise_insertionSort _ _
  have hcounts : ∀ code ∈ refused.map fun r => r.2.code,
      (code, (refused.map fun r => r.2.code).count code) ∈
        (refusalCounts refused).insertionSort before := fun code hcode => by
    rw [List.mem_insertionSort, refusalCounts]
    exact List.mem_map.mpr ⟨code, List.mem_dedup.mpr hcode, rfl⟩
  obtain ⟨first, hfirst⟩ := List.exists_mem_of_ne_nil _ h
  have hcode := hcounts _ (List.mem_map_of_mem (f := fun r : Candidate × Refusal => r.2.code) hfirst)
  cases hlist : (refusalCounts refused).insertionSort before with
  | nil => simp [hlist] at hcode
  | cons top rest =>
      rw [topRefusalReason_of_sorted hlist]
      have hmem : top ∈ refusalCounts refused := by
        rw [← List.mem_insertionSort before, hlist]
        exact List.mem_cons_self ..
      obtain ⟨code, hcode, rfl⟩ := List.mem_map.mp hmem
      refine ⟨List.mem_dedup.mp hcode, fun other hother => ?_⟩
      have hin := hcounts other hother
      rw [hlist] at hin hsorted
      rcases List.mem_cons.mp hin with heq | hrest
      · obtain ⟨rfl, -⟩ := Prod.mk.inj heq
        exact .inr ⟨rfl, le_rfl⟩
      · rcases List.rel_of_pairwise_cons hsorted hrest with hlt | ⟨heq, hle⟩
        · exact .inl hlt
        · exact .inr ⟨heq.symm, hle⟩

/-! ## Plans and availability -/

/-- What a plan says of the teachers who were listed. -/
structure Plan.Follows (env : Env) (question : Question) (profiles : List (ProfileRow × ℤ))
    (now : Instant) (plan : Plan) : Prop where
  selected : (plan.selected.map Candidate.toTeacher).Perm
    ((teachers env profiles).filter fun teacher => CanTake env question teacher)
  best : ∀ candidate rest, plan.selected = candidate :: rest → ∀ teacher ∈ teachers env profiles,
    CanTake env question teacher → candidate.rankScore ≤ (candidatePayload env now teacher).rankScore
  refused : plan.refused.map (fun r => (r.1.toTeacher, r.2)) =
    (teachers env profiles).filterMap fun teacher =>
      (refusalReason env question teacher).map (teacher, ·)
  reason : plan.noCandidateReason = none ↔ ∃ teacher ∈ teachers env profiles, CanTake env question teacher
  mostGiven : ∀ code, plan.noCandidateReason = some code → profiles ≠ [] →
    MostGiven (plan.refused.map fun r => r.2.code) code
  nobody : profiles = [] → plan.noCandidateReason = some "no_teacher_profiles"
  /-- Support that is not online has nobody to offer, whatever is asked. -/
  online : plan.selected.length ≤ (teacherAvailabilitySummary env profiles).availableTeachers

theorem plan_follows (env : Env) (question : Question) (profiles : List (ProfileRow × ℤ)) (now : Instant) :
    (planDispatch env question profiles now).Follows env question profiles now := by
  have hnone : (planDispatch env question profiles now).selected = [] ↔
      ¬ ∃ teacher ∈ teachers env profiles, CanTake env question teacher := by
    have hlength := (@selected_perm env question profiles now).length_eq
    rw [List.length_map] at hlength
    rw [← List.length_eq_zero_iff, hlength, List.length_eq_zero_iff, List.filter_eq_nil_iff]
    simp
  refine ⟨selected_perm, fun candidate rest h teacher hteacher hcan => selected_best h hteacher hcan,
    refused_eq, ?_, ?_, ?_, ?_⟩
  · rw [Plan.noCandidateReason]
    split
    · rename_i hnil
      exact iff_of_false nofun (hnone.mp hnil)
    · rename_i hsome
      exact iff_of_true rfl (not_not.mp fun hno => hsome (hnone.mpr hno))
  · intro code hcode hprofiles
    rw [Plan.noCandidateReason] at hcode
    split at hcode
    · rename_i hnil
      cases hcode
      refine topRefusalReason_mostGiven fun hrefused => ?_
      -- Somebody was listed, and is neither selected nor refused.
      obtain ⟨p, hp⟩ := List.exists_mem_of_ne_nil _ hprofiles
      have hteacher : normalizeTeacherProfile env p.1 p.2 ∈ teachers env profiles :=
        List.mem_map_of_mem (f := fun p : ProfileRow × ℤ => normalizeTeacherProfile env p.1 p.2) hp
      have hall := @refused_eq env question profiles now
      rw [hrefused, List.map_nil] at hall
      have hreason := List.filterMap_eq_nil_iff.mp hall.symm _ hteacher
      rw [Option.map_eq_none_iff] at hreason
      exact hnone.mp hnil ⟨_, hteacher, refusalReason_eq_none.mp hreason⟩
    · cases hcode
  · rintro rfl
    rfl
  · have hlength := (@selected_perm env question profiles now).length_eq
    rw [List.length_map] at hlength
    rw [hlength, teacherAvailabilitySummary]
    refine List.Sublist.length_le (List.monotone_filter_right (teachers env profiles) fun teacher => ?_)
    simp only [Bool.decide_and, decide_eq_true_eq, Bool.and_eq_true]
    exact fun hcan => ⟨hcan.1, List.ne_nil_of_mem hcan.2.2⟩

end Stoa.TeacherDispatch
