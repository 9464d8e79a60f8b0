import Stoa.Model.RecoveryJob
import Stoa.Store.Owner
import Stoa.Store.Log
import Stoa.Store.Solo

/-! # The record of a recovery job

A run writes over the job what it has counted itself. While only one run writes to a job,
and does not stop early, the job's record is that of its targets. -/

namespace Stoa.RecoveryJob

open RowStore

abbrev Entry := Commit Key Item Call

abbrev Run := State Key Item Call (Except Raised (Option Ran))

/-! ## Jobs and their targets -/

def OfJob (jobId : String) : Key → Prop
  | .job i => i = jobId
  | .target i _ => i = jobId

/-- No more work is done on the job. -/
def Status.Terminal (status : Status) : Prop :=
  status ≠ .queued ∧ status ≠ .running ∧ status ≠ .cancellationRequested

instance (status : Status) : Decidable status.Terminal := inferInstanceAs (Decidable (_ ∧ _))

/-- The result counts in the target's row. -/
def hasResult (jobId : String) (result : TargetResult) : (k : Key) → Item k → ℕ
  | .target i _, target => if i = jobId ∧ Target.result target = result then 1 else 0
  | .job _, _ => 0

/-- How many targets of the job have the result. -/
def tally (jobId : String) (result : TargetResult) (t : Table Key Item) : ℕ := t.total (hasResult jobId result)

/-- How many targets the job has. -/
def size (jobId : String) (t : Table Key Item) : ℕ := t.total fun k _ => if isTargetOf jobId k then 1 else 0

/-- The count that a run keeps of a result. -/
def Counts.of (counts : Counts) : TargetResult → ℕ
  | .success => counts.success
  | .refused => counts.refused
  | .notFound => counts.notFound
  | .failed => counts.failed
  | .skippedCancelled => counts.skippedCancelled
  | .pending => 0
  | .inProgress => 0

/-- One target of the job changes, and nothing else of the job. -/
structure TargetMove (jobId : String) (sk : TargetSk) (old new : Target) (t t' : Table Key Item) : Prop where
  before : t.row (.target jobId sk) = some old
  after : t'.row (.target jobId sk) = some new
  others : t'.AgreesOn (fun k => OfJob jobId k ∧ k ≠ .target jobId sk) t

/-- The row of the job changes, and none of its targets. -/
structure JobMove (jobId : String) (old new : Job) (t t' : Table Key Item) : Prop where
  before : t.row (.job jobId) = some old
  after : t'.row (.job jobId) = some new
  others : t'.AgreesOn (fun k => OfJob jobId k ∧ k ≠ .job jobId) t

section

variable {jobId : String} {t t' : Table Key Item} {result : TargetResult} {sk : TargetSk} {old new : Target} {a b : Job}

theorem hasResult_outside (k : Key) (item : Item k) (hk : ¬ OfJob jobId k) : hasResult jobId result k item = 0 := by
  cases k with
  | job i => rfl
  | target i sk => exact if_neg fun h => hk h.1

theorem size_outside (k : Key) (_item : Item k) (hk : ¬ OfJob jobId k) :
    (if isTargetOf jobId k then 1 else 0) = 0 := by
  cases k with
  | job i => rfl
  | target i sk => exact if_neg fun h => hk (of_decide_eq_true (p := i = jobId) h)

theorem tally_agrees (h : t'.AgreesOn (OfJob jobId) t) : tally jobId result t' = tally jobId result t :=
  h.total hasResult_outside

theorem TargetMove.tally (h : TargetMove jobId sk old new t t') :
    RecoveryJob.tally jobId result t' + (if old.result = result then 1 else 0) =
      RecoveryJob.tally jobId result t + (if new.result = result then 1 else 0) := by
  have houtside : ∀ k (item : Item k), ¬ OfJob jobId k → hasResult jobId result k item = 0 := hasResult_outside
  have htotal := h.others.total_of_ne houtside
  rw [h.before, h.after] at htotal
  simpa [hasResult, RecoveryJob.tally] using htotal

theorem TargetMove.size (h : TargetMove jobId sk old new t t') : RecoveryJob.size jobId t' = RecoveryJob.size jobId t := by
  have htotal := h.others.total_of_ne (M := ℕ) size_outside
  rw [h.before, h.after] at htotal
  simpa [RecoveryJob.size] using htotal

theorem TargetMove.job (h : TargetMove jobId sk old new t t') : t'.row (.job jobId) = t.row (.job jobId) :=
  h.others _ ⟨rfl, by simp⟩

theorem TargetMove.target (h : TargetMove jobId sk old new t t') {other : TargetSk} (hne : other ≠ sk) :
    t'.row (.target jobId other) = t.row (.target jobId other) :=
  h.others _ ⟨rfl, by simpa using hne⟩

theorem JobMove.target (h : JobMove jobId a b t t') (sk : TargetSk) :
    t'.row (.target jobId sk) = t.row (.target jobId sk) :=
  h.others _ ⟨rfl, by simp⟩

theorem JobMove.tally (h : JobMove jobId a b t t') :
    RecoveryJob.tally jobId result t' = RecoveryJob.tally jobId result t := by
  have houtside : ∀ k (item : Item k), ¬ OfJob jobId k → hasResult jobId result k item = 0 := hasResult_outside
  have htotal := h.others.total_of_ne houtside
  rw [h.before, h.after] at htotal
  simpa [hasResult, RecoveryJob.tally] using htotal

theorem JobMove.size (h : JobMove jobId a b t t') : RecoveryJob.size jobId t' = RecoveryJob.size jobId t := by
  have htotal := h.others.total_of_ne (M := ℕ) size_outside
  rw [h.before, h.after] at htotal
  simpa [RecoveryJob.size, isTargetOf] using htotal

/-- No target has the result. -/
theorem tally_eq_zero (h : ∀ sk (target : Target), t.row (.target jobId sk) = some target → target.result ≠ result) :
    tally jobId result t = 0 := by
  refine t.total_eq_zero _ fun k item hrow => ?_
  cases k with
  | job i => rfl
  | target i sk =>
      refine if_neg ?_
      rintro ⟨rfl, hresult⟩
      exact h sk item hrow hresult

/-- An update of one target. -/
theorem targetMove_of_admits {fields : Target → Target} {condition : Target → Bool}
    (h : t.Admits [.modify (.target jobId sk) fields condition]) :
    ∃ old : Target, condition old = true ∧
      TargetMove jobId sk old (fields old) t (t.apply [.modify (.target jobId sk) fields condition]) := by
  obtain ⟨old, hrow, hcondition, hafter, hothers⟩ := Table.admits_modify h
  exact ⟨old, hcondition, hrow, hafter, fun k hk => hothers k hk.2⟩

/-- An update of the job. -/
theorem jobMove_of_admits {fields : Job → Job} {condition : Job → Bool}
    (h : t.Admits [.modify (.job jobId) fields condition]) :
    ∃ old : Job, condition old = true ∧
      JobMove jobId old (fields old) t (t.apply [.modify (.job jobId) fields condition]) := by
  obtain ⟨old, hrow, hcondition, hafter, hothers⟩ := Table.admits_modify h
  exact ⟨old, hcondition, hrow, hafter, fun k hk => hothers k hk.2⟩

end

/-! ## What the calls do to one job -/

/-- The job as a claim or a cancellation leaves it. -/
structure Job.Stays (job job' : Job) : Prop where
  jobType : job'.jobType = job.jobType
  targetCount : job'.targetCount = job.targetCount
  pendingCount : job'.pendingCount = job.pendingCount
  counts : job'.counts = job.counts
  failureThreshold : job'.failureThreshold = job.failureThreshold
  status : job'.status = job.status ∨ (job.status = .queued ∨ job.status = .running) ∧
    (job'.status = .running ∨ job'.status = .cancellationRequested)

theorem Job.Stays.refl (job : Job) : job.Stays job := ⟨rfl, rfl, rfl, rfl, rfl, .inl rfl⟩

theorem Job.Stays.trans {a b c : Job} (hab : a.Stays b) (hbc : b.Stays c) : a.Stays c where
  jobType := hbc.jobType.trans hab.jobType
  targetCount := hbc.targetCount.trans hab.targetCount
  pendingCount := hbc.pendingCount.trans hab.pendingCount
  counts := hbc.counts.trans hab.counts
  failureThreshold := hbc.failureThreshold.trans hab.failureThreshold
  status := by
    rcases hab.status with heq | ⟨hopen, hnext⟩
    · rw [← heq]
      exact hbc.status
    · rcases hbc.status with heq' | ⟨-, hnext'⟩
      · exact .inr ⟨hopen, heq' ▸ hnext⟩
      · exact .inr ⟨hopen, hnext'⟩

/-- Nothing but a claim or a cancellation happens to the job. -/
structure LeavesJob (jobId : String) (t t' : Table Key Item) : Prop where
  job : ∀ job : Job, t.row (.job jobId) = some job → ∃ job' : Job, t'.row (.job jobId) = some job' ∧ job.Stays job'
  target : ∀ sk, t'.row (.target jobId sk) = t.row (.target jobId sk)

theorem LeavesJob.refl (jobId : String) (t : Table Key Item) : LeavesJob jobId t t :=
  ⟨fun job h => ⟨job, h, .refl job⟩, fun _ => rfl⟩

theorem LeavesJob.trans {jobId : String} {t u v : Table Key Item} (htu : LeavesJob jobId t u) (huv : LeavesJob jobId u v) :
    LeavesJob jobId t v where
  job job h := by
    obtain ⟨job', h', hstays⟩ := htu.job job h
    obtain ⟨job'', h'', hstays'⟩ := huv.job job' h'
    exact ⟨job'', h'', hstays.trans hstays'⟩
  target sk := (huv.target sk).trans (htu.target sk)

/-- What a run of the job may commit. -/
inductive Works (jobId : String) (t t' : Table Key Item) : Prop where
  | job (job job' : Job) (h : JobMove jobId job job' t t')
  | target (sk : TargetSk) (old new : Target) (h : TargetMove jobId sk old new t t') (hresult : new.result ≠ .pending)

/-- What any call may commit, seen from the job. -/
inductive Move (jobId : String) (c : Call) (t t' : Table Key Item) : Prop where
  | leaves (h : LeavesJob jobId t t')
  | works (r : Delivery) (hc : c = .run r) (hr : r.jobId = jobId) (h : Works jobId t t')

/-- The job and its targets stay there, and what was taken is never pending again. -/
structure Goes (jobId : String) (t t' : Table Key Item) : Prop where
  job : ∀ job : Job, t.row (.job jobId) = some job → ∃ job' : Job, t'.row (.job jobId) = some job'
  target : ∀ sk (target : Target), t.row (.target jobId sk) = some target →
    ∃ target' : Target, t'.row (.target jobId sk) = some target' ∧ (target.result ≠ .pending → target'.result ≠ .pending)

theorem Goes.refl (jobId : String) (t : Table Key Item) : Goes jobId t t :=
  ⟨fun job h => ⟨job, h⟩, fun _ target h => ⟨target, h, id⟩⟩

theorem Goes.trans {jobId : String} {t u v : Table Key Item} (htu : Goes jobId t u) (huv : Goes jobId u v) :
    Goes jobId t v where
  job job h := by
    obtain ⟨job', h'⟩ := htu.job job h
    exact huv.job job' h'
  target sk target h := by
    obtain ⟨target', h', hkeeps⟩ := htu.target sk target h
    obtain ⟨target'', h'', hkeeps'⟩ := huv.target sk target' h'
    exact ⟨target'', h'', fun hresult => hkeeps' (hkeeps hresult)⟩

theorem LeavesJob.goes {jobId : String} {t t' : Table Key Item} (h : LeavesJob jobId t t') : Goes jobId t t' where
  job job hrow := by
    obtain ⟨job', hrow', -⟩ := h.job job hrow
    exact ⟨job', hrow'⟩
  target sk target hrow := ⟨target, (h.target sk).trans hrow, id⟩

theorem Works.goes {jobId : String} {t t' : Table Key Item} (h : Works jobId t t') : Goes jobId t t' := by
  cases h with
  | job job job' h => exact ⟨fun _ _ => ⟨job', h.after⟩, fun sk target hrow => ⟨target, (h.target sk).trans hrow, id⟩⟩
  | target sk old new h hresult =>
      refine ⟨fun job hrow => ⟨job, h.job.trans hrow⟩, fun other target hrow => ?_⟩
      by_cases heq : other = sk
      · subst heq
        exact ⟨new, h.after, fun _ => hresult⟩
      · exact ⟨target, (h.target heq).trans hrow, id⟩

theorem Move.goes {jobId : String} {c : Call} {t t' : Table Key Item} (h : Move jobId c t t') : Goes jobId t t' := by
  cases h with
  | leaves h => exact h.goes
  | works r hc hr h => exact h.goes

/-- What the calls owe each other on one job. -/
def contract (jobId : String) : Contract service where
  Inv t := ∃ job : Job, t.row (.job jobId) = some job
  Rely := Goes jobId
  refl := .refl jobId
  trans := Goes.trans
  Move := Move jobId
  move_inv := fun ⟨job, hrow⟩ h => h.goes.job job hrow
  move_rely := fun _ h => h.goes
  drift_inv := fun hinv h => h ▸ hinv
  drift_rely := fun _ h => h ▸ .refl jobId _

/-! ## The calls -/

theorem leavesJob_outside {jobId : String} {t : Table Key Item} {ops : List (Write Key Item)}
    (h : ∀ w ∈ ops, ¬ OfJob jobId w.key) : LeavesJob jobId t (t.apply ops) := by
  have hsame := Table.AgreesOn.apply_outside t h
  exact ⟨fun job hrow => ⟨job, (hsame (.job jobId) rfl).trans hrow, .refl job⟩, fun sk => hsame (.target jobId sk) rfl⟩

/-- A transaction of a run of the job. -/
def WorksOn (jobId : String) (ops : List (Write Key Item)) : Prop :=
  (∀ w ∈ ops, OfJob jobId w.key) ∧ ∀ t : Table Key Item, t.Admits ops → Works jobId t (t.apply ops)

section

variable {jobId : String} {sk : TargetSk}

theorem worksOn_job {fields : Job → Job} {condition : Job → Bool} :
    WorksOn jobId [.modify (.job jobId) fields condition] := by
  refine ⟨fun w hw => ?_, fun t hadmits => ?_⟩
  · rw [List.mem_singleton.mp hw]
    exact rfl
  · obtain ⟨old, -, hmove⟩ := jobMove_of_admits hadmits
    exact .job old _ hmove

theorem worksOn_target {fields : Target → Target} {condition : Target → Bool}
    (h : ∀ target, (fields target).result ≠ .pending) : WorksOn jobId [.modify (.target jobId sk) fields condition] := by
  refine ⟨fun w hw => ?_, fun t hadmits => ?_⟩
  · rw [List.mem_singleton.mp hw]
    exact rfl
  · obtain ⟨old, -, hmove⟩ := targetMove_of_admits hadmits
    exact .target sk old _ hmove (h old)

theorem submits_updates {T : List (Write Key Item) → Prop} {write : Write Key Item} (h : T [write]) :
    (updates write).run.Submits T :=
  Handler.submits_submit_bind h fun done => by cases done <;> trivial

theorem Outcome.result_ne_pending (outcome : Outcome) : outcome.result ≠ .pending := by cases outcome <;> simp [result]

theorem readOnly_getRecoveryJob : (getRecoveryJob jobId).run.ReadOnly := Handler.readOnly_get

theorem readOnly_listAllJobTargets : (listAllJobTargets jobId).run.ReadOnly :=
  Handler.readOnly_bind Handler.readOnly_list fun _ => trivial

theorem submits_executeTargets (r : Delivery) (job : Job) (targets : List (TargetSk × Target)) (counts : Counts) :
    (executeTargets r job targets counts).run.Submits (WorksOn r.jobId) := by
  induction targets generalizing counts with
  | nil => trivial
  | cons x rest ih =>
      obtain ⟨sk, target⟩ := x
      unfold executeTargets
      split
      · exact ih _
      refine Handler.submits_bind readOnly_getRecoveryJob.submits fun found => ?_
      dsimp only
      split
      · exact Handler.submits_bind (submits_updates (worksOn_target fun _ => by simp [Target.skip])) fun _ => ih _
      split
      · trivial
      refine Handler.submits_submit_bind (worksOn_target fun _ => by simp) fun done => ?_
      cases done with
      | false => exact ih _
      | true =>
          cases r.execute sk with
          | none => trivial
          | some settled =>
              refine Handler.submits_bind (submits_updates (worksOn_target fun _ => settled.outcome.result_ne_pending))
                fun _ => ?_
              refine Handler.submits_bind (show (Handler.of _ : Action ℕ).run.Submits _ from trivial) fun threshold => ?_
              split
              · trivial
              · exact ih _

theorem submits_workOn (r : Delivery) (job : Job) : (workOn r job).run.Submits (WorksOn r.jobId) := by
  refine Handler.submits_bind readOnly_listAllJobTargets.submits fun targets => ?_
  refine Handler.submits_bind (submits_executeTargets r job targets {}) fun ended => ?_
  exact Handler.submits_bind (submits_updates worksOn_job) fun _ => trivial

theorem submits_skipTargets (r : Delivery) (targets : List (TargetSk × Target)) (skipped : ℕ) :
    (skipTargets r targets skipped).run.Submits (WorksOn r.jobId) := by
  induction targets generalizing skipped with
  | nil => trivial
  | cons x rest ih =>
      obtain ⟨sk, target⟩ := x
      unfold skipTargets
      split
      · exact Handler.submits_bind (submits_updates (worksOn_target fun _ => by simp [Target.skip])) fun _ => ih _
      · exact ih _

theorem submits_cancelJob (r : Delivery) : (cancelJob r).run.Submits (WorksOn r.jobId) := by
  refine Handler.submits_bind readOnly_listAllJobTargets.submits fun targets => ?_
  refine Handler.submits_bind (submits_skipTargets r targets 0) fun skipped => ?_
  exact Handler.submits_bind (submits_updates worksOn_job) fun _ => trivial

theorem submits_executeJob (r : Delivery) : (executeJob r).run.Submits (WorksOn r.jobId) := by
  refine Handler.submits_bind readOnly_getRecoveryJob.submits fun found => ?_
  cases found with
  | none => trivial
  | some job =>
      dsimp only
      split
      · trivial
      split
      · exact submits_cancelJob r
      split
      · refine Handler.submits_submit_bind worksOn_job fun done => ?_
        cases done with
        | true => exact submits_workOn r job
        | false =>
            refine Handler.submits_bind readOnly_getRecoveryJob.submits fun found => ?_
            split
            · exact submits_workOn r _
            · trivial
      · split
        · exact submits_workOn r job
        · trivial

theorem submits_cancelRecoveryJob (r : Cancellation) : (cancelRecoveryJob r).run.Submits
    fun ops => (∀ w ∈ ops, OfJob r.jobId w.key) ∧ ∀ t : Table Key Item, t.Admits ops → LeavesJob r.jobId t (t.apply ops) := by
  refine Handler.submits_bind readOnly_getRecoveryJob.submits fun found => ?_
  cases found with
  | none => trivial
  | some job =>
      dsimp only
      split
      · trivial
      refine Handler.submits_submit_bind ⟨fun w hw => ?_, fun t hadmits => ?_⟩ fun done => by cases done <;> trivial
      · rw [List.mem_singleton.mp hw]
        exact rfl
      · obtain ⟨old, hopen, hmove⟩ := jobMove_of_admits hadmits
        refine ⟨fun job hrow => ?_, hmove.target⟩
        cases hmove.before.symm.trans hrow
        exact ⟨_, hmove.after, rfl, rfl, rfl, rfl, rfl, .inr ⟨of_decide_eq_true hopen, .inr rfl⟩⟩

theorem readOnly_previewResumeJob (sourceJobId reason : String) (results : List TargetResult) (maxTargets : ℤ) :
    (previewResumeJob sourceJobId reason results maxTargets).run.ReadOnly := by
  have hsource : (getResumableSourceJob sourceJobId).run.ReadOnly := by
    refine Handler.readOnly_bind readOnly_getRecoveryJob fun found => ?_
    cases found with
    | none => trivial
    | some job =>
        dsimp only
        split
        · trivial
        cases job.jobType with
        | none => trivial
        | some jobType =>
            dsimp only
            split
            · trivial
            split <;> trivial
  unfold previewResumeJob
  split
  · trivial
  refine Handler.readOnly_bind hsource fun source => ?_
  obtain ⟨job, jobType⟩ := source
  dsimp only
  split
  · trivial
  refine Handler.readOnly_bind (show (Handler.of _ : Action (List TargetResult)).run.ReadOnly from trivial) fun filters => ?_
  exact Handler.readOnly_bind readOnly_listAllJobTargets fun _ => trivial

end

/-! ## All calls -/

section

variable {jobId : String} {t : Table Key Item} {own : List (Table Key Item × Table Key Item)}

/-- A transaction on another job. -/
theorem leavesJob_other {other : String} {ops : List (Write Key Item)} (hne : other ≠ jobId)
    (h : ∀ w ∈ ops, OfJob other w.key) : LeavesJob jobId t (t.apply ops) := by
  refine leavesJob_outside fun w hw hof => hne ?_
  have hother := h w hw
  generalize w.key = k at hof hother
  cases k with
  | job i => exact hother.symm.trans hof
  | target i sk => exact hother.symm.trans hof

theorem safe_putTargets {r : Resume} (hne : r.newJobId ≠ jobId) (targets : List (String × Target)) (index : ℕ) :
    (putTargets r.newJobId index targets).run.Safe service.faults (contract jobId).toInterference
      (Move jobId (.resume r)) (fun _ _ _ => True) own t := by
  induction targets generalizing index own t with
  | nil => trivial
  | cons x rest ih =>
      obtain ⟨targetId, target⟩ := x
      refine Handler.safe_bind.mpr (Handler.safe_submit_bind (fun _ _ _ => trivial) fun u _ _ _ => ⟨?_, ih _, trivial⟩)
      refine .leaves (leavesJob_other hne fun w hw => ?_)
      rw [List.mem_singleton.mp hw]
      exact rfl

theorem safe_createResumeJob (r : Resume) : (createResumeJob r).run.Safe service.faults
    (contract jobId).toInterference (Move jobId (.resume r)) (fun _ _ _ => True) own t := by
  refine Handler.safe_readOnly_bind (readOnly_previewResumeJob _ _ _ _) (fun preview u _ => ?_) fun _ _ _ => trivial
  obtain ⟨token, eligible⟩ := preview
  dsimp only
  split
  · trivial
  split
  · trivial
  refine Handler.safe_readOnly_bind readOnly_listAllJobTargets (fun targets u _ => ?_) fun _ _ _ => trivial
  refine Handler.safe_bind.mpr (Handler.safe_submit_bind (fun _ _ _ => trivial) fun v _ hinv hadmits => ?_)
  by_cases hne : r.newJobId = jobId
  · -- The job is there already.
    obtain ⟨job, hrow⟩ := hinv
    have hnew : (v.row (.job r.newJobId)).isNone = true := hadmits.2 _ (List.mem_singleton_self _)
    rw [hne, hrow] at hnew
    cases hnew
  · refine ⟨.leaves (leavesJob_other hne fun w hw => ?_), safe_putTargets hne _ _, trivial⟩
    rw [List.mem_singleton.mp hw]
    exact rfl

theorem safe_body (c : Call) : (service.body c).Safe service.faults (contract jobId).toInterference (Move jobId c)
    (fun _ _ _ => True) own t := by
  cases c with
  | run r =>
      refine (Handler.submits_map (submits_executeJob r)).safe fun ops u hops _ hadmits => ?_
      by_cases hne : r.jobId = jobId
      · exact .works r rfl hne (hne ▸ hops.2 u hadmits)
      · exact .leaves (leavesJob_other hne hops.1)
  | cancel r =>
      refine (Handler.submits_map (submits_cancelRecoveryJob r)).safe fun ops u hops _ hadmits => ?_
      by_cases hne : r.jobId = jobId
      · exact .leaves (hne ▸ hops.2 u hadmits)
      · exact .leaves (leavesJob_other hne hops.1)
  | resume r =>
      change ((fun _ => none) <$> createResumeJob r : Action (Option Ran)).run.Safe _ _ _ _ _ _
      rw [map_eq_pure_bind]
      refine Handler.safe_bind.mpr ((safe_createResumeJob r).mono (fun _ _ _ h => h) fun result _ _ _ => ?_)
      cases result <;> trivial

end

/-! ## Listings -/

section

variable {jobId : String} {t u : Table Key Item} {rows : List ((k : Key) × Item k)}

theorem mem_targetsIn (h : t.Answers (isTargetOf jobId) rows) {sk : TargetSk} {target : Target} :
    (sk, target) ∈ targetsIn rows ↔ t.row (.target jobId sk) = some target := by
  unfold targetsIn
  rw [List.mem_insertionSort, List.mem_filterMap]
  constructor
  · rintro ⟨⟨k, item⟩, hmem, heq⟩
    obtain ⟨hsel, hrow⟩ := h.mem_iff.mp hmem
    cases k with
    | job i => cases heq
    | target i sk' =>
        cases heq
        cases of_decide_eq_true hsel
        exact hrow
  · intro hrow
    exact ⟨⟨.target jobId sk, target⟩, h.mem_iff.mpr ⟨decide_eq_true rfl, hrow⟩, rfl⟩

theorem nodup_targetsIn (h : t.Answers (isTargetOf jobId) rows) : ((targetsIn rows).map Prod.fst).Nodup := by
  have hrows : rows.Nodup := h.nodup_iff.mpr (t.nodup_rows _)
  have hpairs : (targetsIn rows).Nodup := by
    refine (List.perm_insertionSort _ _).nodup_iff.mpr (List.pairwise_filterMap.mpr (hrows.imp_of_mem ?_))
    rintro ⟨k, item⟩ ⟨k', item'⟩ hx hy hne x heq y heq' rfl
    obtain ⟨hsel, -⟩ := h.mem_iff.mp hx
    obtain ⟨hsel', -⟩ := h.mem_iff.mp hy
    cases k with
    | job i => cases hsel
    | target i sk =>
        cases k' with
        | job i' => cases hsel'
        | target i' sk' =>
            cases of_decide_eq_true hsel
            cases of_decide_eq_true hsel'
            cases heq
            cases heq'
            exact hne rfl
  refine hpairs.map_on ?_
  rintro ⟨sk, target⟩ hx ⟨_, target'⟩ hy rfl
  cases ((mem_targetsIn h).mp hx).symm.trans ((mem_targetsIn h).mp hy)
  rfl

theorem length_targetsIn (h : t.Answers (isTargetOf jobId) rows) : (targetsIn rows).length = size jobId t := by
  have hlength : rows.length = size jobId t := (List.Perm.length_eq h).trans (t.length_rows _)
  rw [← hlength]
  unfold targetsIn
  rw [List.length_insertionSort, List.filterMap_length_eq_length]
  rintro ⟨k, item⟩ hmem
  have hsel := (h.mem_iff.mp hmem).1
  cases k with
  | job i => cases hsel
  | target i sk => rfl

/-- Two tables with the same targets have the same listings. -/
theorem answers_congr (hsame : ∀ sk, u.row (.target jobId sk) = t.row (.target jobId sk)) :
    u.Answers (isTargetOf jobId) rows ↔ t.Answers (isTargetOf jobId) rows := by
  have hperm : (u.rows (isTargetOf jobId)).Perm (t.rows (isTargetOf jobId)) := by
    refine (List.perm_ext_iff_of_nodup (u.nodup_rows _) (t.nodup_rows _)).mpr ?_
    rintro ⟨k, item⟩
    rw [Table.mem_rows, Table.mem_rows]
    refine and_congr_right fun hsel => ?_
    cases k with
    | job i => cases hsel
    | target i sk =>
        cases of_decide_eq_true hsel
        rw [hsame]
  exact ⟨fun h => h.trans hperm, fun h => h.trans hperm.symm⟩

end

end Stoa.RecoveryJob
