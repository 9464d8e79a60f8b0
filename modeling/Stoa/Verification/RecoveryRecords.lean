import Stoa.Verification.RecoveryJobs

/-! # The account of a run

Alone with a job, a run has counted every target that it is through with, and the targets
that it has listed are all there are. -/

namespace Stoa.RecoveryJob

open RowStore

/-! ## What a run may rely on, and what it does -/

/-- The results that a target may end with. -/
def TargetResult.Done (result : TargetResult) : Prop := result = .success ∨ result ∈ RESUMABLE_TARGET_RESULTS

/-- The job has the totals of its targets, and none is left behind. -/
structure Job.Truthful (job : Job) (jobId : String) (t : Table Key Item) : Prop where
  counts : ∀ result, result ≠ .pending → result ≠ .inProgress → job.counts.of result = tally jobId result t
  pendingCount : job.pendingCount = tally jobId .pending t
  done : ∀ sk (target : Target), t.row (.target jobId sk) = some target → target.result.Done
  cancelled : 0 < job.counts.skippedCancelled → job.status = .cancelled

/-- What a run does not change about its job. -/
structure Job.Describes (job' job : Job) : Prop where
  jobType : job'.jobType = job.jobType
  targetCount : job'.targetCount = job.targetCount
  failureThreshold : job'.failureThreshold = job.failureThreshold

/-- Nobody else works on the job. -/
def alone (jobId : String) : Interference Key Item where
  Inv _ := True
  Rely := LeavesJob jobId
  refl := .refl jobId
  trans := LeavesJob.trans

/-- What a run commits that is alone with its job. -/
inductive Worked (jobId : String) (t t' : Table Key Item) : Prop where
  | claimed (h : LeavesJob jobId t t')
  | target (sk : TargetSk) (old new : Target) (h : TargetMove jobId sk old new t t') (job : Job)
      (hjob : t.row (.job jobId) = some job) (hopen : ¬ job.status.Terminal)
  | closed (job job' : Job) (h : JobMove jobId job job' t t') (hopen : ¬ job.status.Terminal)
      (hkeeps : job'.Describes job) (htrue : job'.Truthful jobId t)

section

variable {jobId : String} {t u : Table Key Item} {result : TargetResult}

theorem Job.Stays.open_ {job job' : Job} (h : job.Stays job') (hopen : ¬ job.status.Terminal) : ¬ job'.status.Terminal := by
  rcases h.status with heq | ⟨-, hrunning | hrequested⟩
  · rwa [heq]
  · rw [hrunning]
    decide
  · rw [hrequested]
    decide

theorem LeavesJob.tally (h : LeavesJob jobId t u) : RecoveryJob.tally jobId result u = RecoveryJob.tally jobId result t := by
  refine Table.total_congr fun k => ?_
  cases k with
  | job i => cases u.row (.job i) <;> cases t.row (.job i) <;> rfl
  | target i sk =>
      by_cases hi : i = jobId
      · subst hi
        rw [h.target]
      · have hzero : ∀ row : Option Target, row.elim 0 (hasResult jobId result (.target i sk)) = 0 := fun row => by
          cases row with
          | none => rfl
          | some target => exact if_neg fun hboth => hi hboth.1
        rw [hzero, hzero]

theorem LeavesJob.size (h : LeavesJob jobId t u) : RecoveryJob.size jobId u = RecoveryJob.size jobId t := by
  refine Table.total_congr fun k => ?_
  cases k with
  | job i => cases u.row (.job i) <;> cases t.row (.job i) <;> rfl
  | target i sk =>
      by_cases hi : i = jobId
      · subst hi
        rw [h.target]
      · have hzero : ∀ row : Option Target, row.elim 0 (fun _ => if isTargetOf jobId (.target i sk) then 1 else 0) = 0 :=
          fun row => by
            cases row with
            | none => rfl
            | some target => exact if_neg fun hsel => hi (of_decide_eq_true hsel)
        rw [hzero, hzero]

end

/-! ## The account -/

/-- The job is open, and its own totals have not been written. -/
def OpenJob (jobId : String) (t : Table Key Item) : Prop :=
  ∃ job : Job, t.row (.job jobId) = some job ∧ ¬ job.status.Terminal ∧ job.counts = {}

/-- The targets in `rest` are still to be done, and all others are counted. -/
structure Working (jobId : String) (n : ℕ) (rest : List (TargetSk × Target)) (counts : Counts) (t : Table Key Item) :
    Prop where
  job : OpenJob jobId t
  listed : ∀ x ∈ rest, t.row (.target jobId x.1) = some x.2 ∧ x.2.result = .pending
  nodup : (rest.map Prod.fst).Nodup
  done : ∀ sk (target : Target), t.row (.target jobId sk) = some target → sk ∈ rest.map Prod.fst ∨ target.result.Done
  tallies : ∀ result, result ≠ .pending → tally jobId result t = counts.of result
  total : counts.completed + rest.length = n

/-- The run is at one target; all that is known of it is its row. -/
structure Holding (jobId : String) (n : ℕ) (sk : TargetSk) (held : Target) (rest : List (TargetSk × Target))
    (counts : Counts) (t : Table Key Item) : Prop where
  job : OpenJob jobId t
  row : t.row (.target jobId sk) = some held
  listed : ∀ x ∈ rest, t.row (.target jobId x.1) = some x.2 ∧ x.2.result = .pending
  nodup : (sk :: rest.map Prod.fst).Nodup
  done : ∀ other (target : Target), t.row (.target jobId other) = some target →
    other = sk ∨ other ∈ rest.map Prod.fst ∨ target.result.Done
  tallies : ∀ result, result ≠ .pending →
    tally jobId result t = counts.of result + (if held.result = result then 1 else 0)
  total : counts.completed + rest.length + 1 = n

section

variable {jobId : String} {n : ℕ} {sk : TargetSk} {target held new : Target} {rest : List (TargetSk × Target)}
  {counts counts' : Counts} {t u : Table Key Item}

theorem OpenJob.leaves (h : OpenJob jobId t) (hleaves : LeavesJob jobId t u) : OpenJob jobId u := by
  obtain ⟨job, hrow, hopen, hcounts⟩ := h
  obtain ⟨job', hrow', hstays⟩ := hleaves.job job hrow
  exact ⟨job', hrow', hstays.open_ hopen, hstays.counts.trans hcounts⟩

theorem Working.leaves (h : Working jobId n rest counts t) (hleaves : LeavesJob jobId t u) :
    Working jobId n rest counts u where
  job := h.job.leaves hleaves
  listed x hx := by
    rw [hleaves.target]
    exact h.listed x hx
  nodup := h.nodup
  done sk target hrow := h.done sk target ((hleaves.target sk).symm.trans hrow)
  tallies result hresult := by rw [hleaves.tally, h.tallies result hresult]
  total := h.total

theorem Holding.leaves (h : Holding jobId n sk held rest counts t) (hleaves : LeavesJob jobId t u) :
    Holding jobId n sk held rest counts u where
  job := h.job.leaves hleaves
  row := (hleaves.target sk).trans h.row
  listed x hx := by
    rw [hleaves.target]
    exact h.listed x hx
  nodup := h.nodup
  done other target hrow := h.done other target ((hleaves.target other).symm.trans hrow)
  tallies result hresult := by rw [hleaves.tally, h.tallies result hresult]
  total := h.total

/-- The next target is picked up. -/
theorem Working.next (h : Working jobId n ((sk, target) :: rest) counts t) :
    Holding jobId n sk target rest counts t := by
  obtain ⟨hrow, hpending⟩ := h.listed _ (List.mem_cons_self ..)
  refine ⟨h.job, hrow, fun x hx => h.listed x (List.mem_cons_of_mem _ hx), h.nodup, fun other row hother => ?_,
    fun result hresult => ?_, ?_⟩
  · rcases h.done other row hother with hmem | hdone
    · rcases List.mem_cons.mp hmem with heq | hmem
      · exact .inl heq
      · exact .inr (.inl hmem)
    · exact .inr (.inr hdone)
  · rw [h.tallies result hresult, if_neg, Nat.add_zero]
    rw [hpending]
    exact Ne.symm hresult
  · have htotal := h.total
    rw [List.length_cons] at htotal
    omega

theorem Holding.move (h : Holding jobId n sk held rest counts t) (hmove : TargetMove jobId sk held new t u) :
    Holding jobId n sk new rest counts u where
  job := by
    obtain ⟨job, hrow, hrest⟩ := h.job
    exact ⟨job, hmove.job.trans hrow, hrest⟩
  row := hmove.after
  listed x hx := by
    have hne : x.1 ≠ sk := fun heq => (List.nodup_cons.mp h.nodup).1 (heq ▸ List.mem_map_of_mem hx)
    rw [hmove.target hne]
    exact h.listed x hx
  nodup := h.nodup
  done other target hrow := by
    by_cases heq : other = sk
    · exact .inl heq
    · exact h.done other target ((hmove.target heq).symm.trans hrow)
  tallies result hresult := by
    have htally : tally jobId result u + _ = tally jobId result t + _ := hmove.tally
    have hbefore := h.tallies result hresult
    omega
  total := h.total

/-- The target is through, and counted. -/
theorem Holding.settle (h : Holding jobId n sk held rest counts t) (hdone : held.result.Done)
    (hcounts : ∀ result, result ≠ .pending → counts'.of result = counts.of result + (if held.result = result then 1 else 0))
    (hcompleted : counts'.completed = counts.completed + 1) : Working jobId n rest counts' t where
  job := h.job
  listed := h.listed
  nodup := (List.nodup_cons.mp h.nodup).2
  done other target hrow := by
    rcases h.done other target hrow with rfl | hrest | hdone'
    · cases h.row.symm.trans hrow
      exact .inr hdone
    · exact .inl hrest
    · exact .inr hdone'
  tallies result hresult := by rw [h.tallies result hresult, hcounts result hresult]
  total := by
    have htotal := h.total
    omega

theorem Outcome.done (outcome : Outcome) : outcome.result.Done := by
  cases outcome <;> simp [Outcome.result, TargetResult.Done, RESUMABLE_TARGET_RESULTS]

theorem Counts.of_add (counts : Counts) (outcome : Outcome) (result : TargetResult) :
    (counts.add outcome).of result = counts.of result + (if outcome.result = result then 1 else 0) := by
  cases outcome <;> cases result <;> rfl

theorem Counts.completed_add (counts : Counts) (outcome : Outcome) :
    (counts.add outcome).completed = counts.completed + 1 := by
  cases outcome <;> simp only [Counts.add, Counts.completed] <;> omega

/-- A job whose targets are all through may be closed. -/
theorem Working.truthful (h : Working jobId n [] counts t) {job : Job}
    (hcounts : ∀ result, result ≠ .pending → result ≠ .inProgress → job.counts.of result = counts.of result)
    (hpending : job.pendingCount = 0) (hcancelled : 0 < job.counts.skippedCancelled → job.status = .cancelled) :
    job.Truthful jobId t where
  counts result hresult hprogress := by rw [hcounts result hresult hprogress, h.tallies result hresult]
  pendingCount := by
    rw [hpending, tally_eq_zero]
    intro sk target hrow heq
    rcases h.done sk target hrow with hmem | hdone
    · cases hmem
    · rw [heq] at hdone
      simp [TargetResult.Done, RESUMABLE_TARGET_RESULTS] at hdone
  done sk target hrow := (h.done sk target hrow).resolve_left (List.not_mem_nil)
  cancelled := hcancelled

end

/-! ## A run that is alone with its job -/

section

variable {jobId : String} {t : Table Key Item} {own : List (Table Key Item × Table Key Item)} {α β : Type}
  {Q : α → Table Key Item → Prop} {R : β → Table Key Item → Prop}

/-- Alone, the program only does the work of a run, and what it answers is in `Q`. -/
abbrev SafeRun (jobId : String) (y : Action α) (Q : α → Table Key Item → Prop)
    (own : List (Table Key Item × Table Key Item)) (t : Table Key Item) : Prop :=
  y.run.Safe service.faults (alone jobId) (Worked jobId) (fun result _ u => ∀ a, result = .ok a → Q a u) own t

theorem safeRun_return {a : α} (h : Q a t) : SafeRun jobId (pure a) Q own t := by
  rintro _ ⟨⟩
  exact h

theorem safeRun_throw {e : Raised} : SafeRun jobId (throw e) Q own t := fun _ heq => by cases heq

theorem safeRun_bind {y : Action β} {f : β → Action α} (hy : SafeRun jobId y R own t)
    (hf : ∀ b own u, R b u → SafeRun jobId (f b) Q own u) : SafeRun jobId (y >>= f) Q own t := by
  refine Handler.safe_bind.mpr (hy.mono (fun _ _ _ h => h) fun result own u hresult => ?_)
  cases result with
  | ok b => exact hf b own u (hresult b rfl)
  | error e => exact fun _ heq => by cases heq

theorem safeRun_get {f : Option Job → Action α}
    (hf : ∀ u, LeavesJob jobId t u → SafeRun jobId (f (u.row (.job jobId))) Q own u) :
    SafeRun jobId (getRecoveryJob jobId >>= f) Q own t :=
  Handler.safe_get_bind fun u hr _ => ⟨hf u hr, fun _ heq => by cases heq⟩

theorem safeRun_submit {ops : List (Write Key Item)} {f : Bool → Action α}
    (hrefused : ∀ u, LeavesJob jobId t u → ¬ u.Admits ops → SafeRun jobId (f false) Q own u)
    (hcommit : ∀ u, LeavesJob jobId t u → u.Admits ops → Worked jobId u (u.apply ops) ∧
      ∀ own, SafeRun jobId (f true) Q own (u.apply ops)) : SafeRun jobId (Handler.submit ops >>= f) Q own t :=
  Handler.safe_submit_bind_exact ⟨id, id⟩ (fun u hr _ hn => hrefused u hr hn) fun u hr _ ha =>
    ⟨(hcommit u hr ha).1, (hcommit u hr ha).2 _⟩

variable {n : ℕ} {sk : TargetSk} {held : Target} {rest : List (TargetSk × Target)} {counts : Counts}

theorem admits_modify {k : Key} {fields : Item k → Item k} {condition : Item k → Bool} {row : Item k}
    (hrow : t.row k = some row) (hcondition : condition row = true) : t.Admits [.modify k fields condition] := by
  refine ⟨by simp, fun w hw => ?_⟩
  rw [List.mem_singleton.mp hw]
  change (t.row k).any condition = true
  rw [hrow]
  exact hcondition

/-- The run writes to the target that it holds. -/
theorem Holding.write {fields : Target → Target} {condition : Target → Bool}
    (h : Holding jobId n sk held rest counts t) (ha : t.Admits [.modify (.target jobId sk) fields condition]) :
    Worked jobId t (t.apply [.modify (.target jobId sk) fields condition]) ∧
      Holding jobId n sk (fields held) rest counts (t.apply [.modify (.target jobId sk) fields condition]) := by
  obtain ⟨old, -, hmove⟩ := targetMove_of_admits ha
  cases h.row.symm.trans hmove.before
  obtain ⟨job, hjob, hopen, -⟩ := h.job
  exact ⟨.target sk held _ hmove job hjob hopen, h.move hmove⟩

theorem safeRun_updateTarget {fields : Target → Target} (h : Holding jobId n sk held rest counts t) :
    SafeRun jobId (updateRecoveryJobTarget jobId sk fields)
      (fun _ u => Holding jobId n sk (fields held) rest counts u) own t := by
  refine safeRun_submit (fun u hu hn => ?_) fun u hu ha => ?_
  · exact absurd (admits_modify (h.leaves hu).row rfl) hn
  · obtain ⟨hworked, hnext⟩ := (h.leaves hu).write ha
    exact ⟨hworked, fun _ => safeRun_return hnext⟩

/-- The outcome of a target is a failure. -/
def Delivery.fails (r : Delivery) (sk : TargetSk) : Bool := (r.execute sk).any fun settled => settled.outcome = .failed

/-- A run that is given the time, and sees too many failures at its last target at the
earliest, comes to the end. -/
theorem safeRun_executeTargets {r : Delivery} {job : Job} (hr : r.jobId = jobId)
    (htime : ∀ sk, TIME_REMAINING_FLOOR_MS ≤ r.remainingTimeMs sk) (hthreshold : job.failureThreshold = FAILURE_THRESHOLD)
    {targets : List (TargetSk × Target)} (h : Working jobId n targets counts t)
    (hfail : counts.failed + targets.dropLast.countP (fun x => r.fails x.1) < FAILURE_THRESHOLD) :
    SafeRun jobId (executeTargets r job targets counts) (fun ended u => Working jobId n [] ended.1 u) own t := by
  subst hr
  induction targets generalizing counts own t with
  | nil => exact safeRun_return h
  | cons x rest ih =>
      obtain ⟨sk, target⟩ := x
      have hlater : (if r.fails sk then 1 else 0) + counts.failed + rest.dropLast.countP (fun x => r.fails x.1) <
          FAILURE_THRESHOLD ∨ rest = [] := by
        cases rest with
        | nil => exact .inr rfl
        | cons y rest =>
            rw [List.dropLast_cons_cons, List.countP_cons] at hfail
            dsimp only at hfail
            exact .inl (by omega)
      have hnow : counts.failed + rest.dropLast.countP (fun x => r.fails x.1) < FAILURE_THRESHOLD := by
        rcases hlater with hlater | rfl
        · omega
        · exact hfail
      unfold executeTargets
      rw [if_neg (not_not.mpr (h.listed _ (List.mem_cons_self ..)).2)]
      refine safeRun_get fun u hu => ?_
      have hold := h.next.leaves hu
      extract_lets currentJob
      by_cases hcancel : currentJob.status = .cancellationRequested
      · rw [if_pos hcancel]
        refine safeRun_bind (safeRun_updateTarget hold) fun _ own v hv => ?_
        have hdone : TargetResult.skippedCancelled.Done := .inr (by decide)
        refine ih hnow (hv.settle hdone (fun result _ => ?_) ?_)
        · cases result <;> rfl
        · simp only [Counts.completed]
          omega
      rw [if_neg hcancel, if_neg (not_lt.mpr (htime sk))]
      have hpending := (h.listed _ (List.mem_cons_self ..)).2
      refine safeRun_submit (fun v hv hn => ?_) fun v hv ha => ?_
      · exact absurd (admits_modify (hold.leaves hv).row (decide_eq_true hpending)) hn
      obtain ⟨hworked, htaken⟩ := (hold.leaves hv).write ha
      refine ⟨hworked, fun own => ?_⟩
      rw [if_pos rfl]
      cases hexecute : r.execute sk with
      | none => exact safeRun_throw
      | some settled =>
          refine safeRun_bind (safeRun_updateTarget htaken) fun _ own w hw => ?_
          extract_lets counted
          have hsettled : Working r.jobId n rest counted w := by
            refine hw.settle settled.outcome.done (fun result _ => ?_) ?_
            · exact Counts.of_add _ _ _
            · exact Counts.completed_add _ _
          refine Handler.safe_of_bind (fun threshold hpositive => ?_) fun _ _ _ heq => by cases heq
          have heq : threshold = FAILURE_THRESHOLD := by
            unfold requiredPositiveInt at hpositive
            rw [hthreshold] at hpositive
            exact (Except.ok.inj hpositive).symm
          rw [heq]
          rcases hlater with hlater | rfl
          · have hcounted : counted.failed = (if r.fails sk then 1 else 0) + counts.failed := by
              have hfails : r.fails sk = decide (settled.outcome = .failed) := by simp [Delivery.fails, hexecute]
              rw [hfails]
              cases hout : settled.outcome <;> simp [counted, hout, Counts.add, Nat.add_comm]
            rw [← hcounted] at hlater
            rw [if_neg (by omega)]
            exact ih hlater hsettled
          · split
            · exact safeRun_return hsettled
            · exact safeRun_return hsettled

theorem safeRun_skipTargets {r : Delivery} (hr : r.jobId = jobId) {targets : List (TargetSk × Target)} {skipped : ℕ}
    (h : Working jobId n targets { skippedCancelled := skipped } t) :
    SafeRun jobId (skipTargets r targets skipped)
      (fun ended u => Working jobId n [] { skippedCancelled := ended } u) own t := by
  subst hr
  induction targets generalizing skipped own t with
  | nil => exact safeRun_return h
  | cons x rest ih =>
      obtain ⟨sk, target⟩ := x
      unfold skipTargets
      rw [if_pos (h.listed _ (List.mem_cons_self ..)).2]
      refine safeRun_bind (safeRun_updateTarget h.next) fun _ own v hv => ?_
      have hdone : TargetResult.skippedCancelled.Done := .inr (by decide)
      refine ih (hv.settle hdone (fun result _ => ?_) ?_)
      · cases result <;> rfl
      · simp only [Counts.completed]
        omega

/-- The run closes a job whose targets are all through. -/
theorem safeRun_close {fields : Job → Job} (h : Working jobId n [] counts t)
    (hkeeps : ∀ job, (fields job).Describes job)
    (htrue : ∀ u job, Working jobId n [] counts u → job.counts = {} → (fields job).Truthful jobId u) :
    SafeRun jobId (updateRecoveryJobStatus jobId fields) (fun _ _ => True) own t := by
  refine safeRun_submit (fun u hu hn => ?_) fun u hu ha => ?_
  · obtain ⟨job, hrow, -⟩ := (h.leaves hu).job
    exact absurd (admits_modify hrow rfl) hn
  · obtain ⟨job, hrow, hopen, hcounts⟩ := (h.leaves hu).job
    obtain ⟨old, -, hmove⟩ := jobMove_of_admits ha
    cases hrow.symm.trans hmove.before
    exact ⟨.closed job _ hmove hopen (hkeeps job) (htrue u job (h.leaves hu) hcounts), fun _ => safeRun_return trivial⟩

/-- Nothing has been done yet, but a cancellation may have been requested. -/
structure Ready (jobId : String) (n : ℕ) (t u : Table Key Item) : Prop where
  job : OpenJob jobId u
  target : ∀ sk, u.row (.target jobId sk) = t.row (.target jobId sk)
  size : size jobId u = n

theorem Ready.leaves {u v : Table Key Item} (h : Ready jobId n t u) (hleaves : LeavesJob jobId u v) :
    Ready jobId n t v where
  job := h.job.leaves hleaves
  target sk := (hleaves.target sk).trans (h.target sk)
  size := hleaves.size.trans h.size

theorem Ready.working {u : Table Key Item} {rows : List ((k : Key) × Item k)} (h : Ready jobId n t u)
    (hpending : ∀ sk (target : Target), t.row (.target jobId sk) = some target → target.result = .pending)
    (hrows : u.Answers (isTargetOf jobId) rows) : Working jobId n (targetsIn rows) {} u where
  job := h.job
  listed x hx := by
    have hrow := (mem_targetsIn hrows).mp hx
    exact ⟨hrow, hpending x.1 x.2 ((h.target x.1).symm.trans hrow)⟩
  nodup := nodup_targetsIn hrows
  done sk target hrow := .inl (List.mem_map.mpr ⟨(sk, target), (mem_targetsIn hrows).mpr hrow, rfl⟩)
  tallies result hresult := by
    have hzero : tally jobId result u = 0 := tally_eq_zero fun sk target hrow heq =>
      hresult (heq.symm.trans (hpending sk target ((h.target sk).symm.trans hrow)))
    rw [hzero]
    cases result <;> rfl
  total := by
    rw [length_targetsIn hrows, h.size]
    exact Nat.zero_add n

/-- A job as it is created. -/
structure Fresh (jobId : String) (t : Table Key Item) (job : Job) : Prop where
  row : t.row (.job jobId) = some job
  jobType : job.jobType = some RESEND_JOB_TYPE ∨ job.jobType = some GENERATION_RETRY_JOB_TYPE
  opened : ¬ job.status.Terminal
  counts : job.counts = {}
  failureThreshold : job.failureThreshold = FAILURE_THRESHOLD
  size : size jobId t = job.targetCount
  bounded : job.targetCount ≤ MAX_TARGETS
  pending : ∀ sk (target : Target), t.row (.target jobId sk) = some target → target.result = .pending

theorem Fresh.ready {u : Table Key Item} {job : Job} (h : Fresh jobId t job) (hleaves : LeavesJob jobId t u) :
    Ready jobId job.targetCount t u := by
  have hstart : Ready jobId job.targetCount t t := ⟨⟨job, h.row, h.opened, h.counts⟩, fun _ => rfl, h.size⟩
  exact hstart.leaves hleaves

/-- What keeps a run from stopping early: it is given the time, and the failures among the
targets before the last one stay under the threshold. -/
structure Delivery.RunsThrough (r : Delivery) (t : Table Key Item) : Prop where
  time : ∀ sk, TIME_REMAINING_FLOOR_MS ≤ r.remainingTimeMs sk
  failures : ∀ rows, t.Answers (isTargetOf r.jobId) rows →
    (targetsIn rows).dropLast.countP (fun x => r.fails x.1) < FAILURE_THRESHOLD

variable {r : Delivery} {job : Job}

theorem safeRun_list {f : List (TargetSk × Target) → Action α} {u : Table Key Item}
    (hf : ∀ v rows, LeavesJob jobId u v → v.Answers (isTargetOf jobId) rows → SafeRun jobId (f (targetsIn rows)) Q own v) :
    SafeRun jobId (listAllJobTargets jobId >>= f) Q own u := by
  unfold listAllJobTargets
  rw [bind_assoc]
  refine Handler.safe_list_bind fun v hv _ => ⟨fun rows hrows => ?_, fun _ heq => by cases heq⟩
  rw [pure_bind]
  exact hf v rows hv hrows

theorem safeRun_workOn {fresh found : Job} {u : Table Key Item} (hr : r.jobId = jobId) (hfresh : Fresh jobId t fresh)
    (hruns : r.RunsThrough t) (hfound : fresh.Stays found) (h : Ready jobId fresh.targetCount t u) :
    SafeRun jobId (workOn r found) (fun _ _ => True) own u := by
  subst hr
  refine safeRun_list fun v rows hv hrows => ?_
  have hworking := (h.leaves hv).working hfresh.pending hrows
  have hfail := hruns.failures rows ((answers_congr (h.leaves hv).target).mp hrows)
  have hthreshold : found.failureThreshold = FAILURE_THRESHOLD := hfound.failureThreshold.trans hfresh.failureThreshold
  refine safeRun_bind (safeRun_executeTargets rfl hruns.time hthreshold hworking
    (by simpa using hfail)) fun ended own w hended => ?_
  obtain ⟨counts, stopReason⟩ := ended
  refine safeRun_bind (safeRun_close hended (fun old => ⟨rfl, rfl, rfl⟩) fun x old hx _ =>
    hx.truthful (fun _ _ _ => rfl) ?_ fun hskipped => if_pos hskipped) fun _ _ _ _ => safeRun_return trivial
  have htotal := hx.total
  rw [List.length_nil, Nat.add_zero] at htotal
  change found.targetCount - counts.completed = 0
  rw [hfound.targetCount, htotal, Nat.sub_self]

theorem safeRun_cancelJob {fresh : Job} {u : Table Key Item} (hr : r.jobId = jobId) (hfresh : Fresh jobId t fresh)
    (h : Ready jobId fresh.targetCount t u) : SafeRun jobId (cancelJob r) (fun _ _ => True) own u := by
  subst hr
  refine safeRun_list fun v rows hv hrows => ?_
  refine safeRun_bind (safeRun_skipTargets rfl ((h.leaves hv).working hfresh.pending hrows)) fun skipped own w hdone => ?_
  refine safeRun_bind (safeRun_close hdone (fun old => ⟨rfl, rfl, rfl⟩) fun x old hx hcounts =>
    hx.truthful (fun result _ _ => ?_) rfl fun _ => rfl) fun _ _ _ _ => safeRun_return trivial
  change Counts.of { old.counts with skippedCancelled := skipped } result = _
  rw [hcounts]

/-- The claim of a job that is queued. -/
theorem leavesJob_claim {startedAt : Instant} {u : Table Key Item} {ops : List (Write Key Item)}
    (hops : ops = [.modify (.job jobId)
      (fun job : Job =>
        { job with status := .running, startedAt := some (job.startedAt.getD startedAt), updatedAt := startedAt })
      fun job : Job => job.status = .queued])
    (ha : u.Admits ops) : LeavesJob jobId u (u.apply ops) := by
  subst hops
  obtain ⟨old, hqueued, hmove⟩ := jobMove_of_admits ha
  refine ⟨fun job hrow => ?_, hmove.target⟩
  cases hmove.before.symm.trans hrow
  exact ⟨_, hmove.after, rfl, rfl, rfl, rfl, rfl, .inr ⟨.inl (of_decide_eq_true hqueued), .inl rfl⟩⟩

/-- A delivery of the worker event, alone with the job. -/
theorem safeRun_executeJob {fresh : Job} {u : Table Key Item} (hr : r.jobId = jobId) (hfresh : Fresh jobId t fresh)
    (hruns : r.RunsThrough t) (hleaves : LeavesJob jobId t u) :
    SafeRun jobId (executeJob r) (fun _ _ => True) own u := by
  subst hr
  refine safeRun_get fun v hv => ?_
  have hready := hfresh.ready (hleaves.trans hv)
  obtain ⟨job, hrow, hstays⟩ := (hleaves.trans hv).job fresh hfresh.row
  rw [hrow]
  dsimp only
  split
  · exact safeRun_return trivial
  split
  · exact safeRun_cancelJob rfl hfresh hready
  split
  · refine safeRun_submit (fun w hw hn => ?_) fun w hw ha => ?_
    · rw [if_neg Bool.false_ne_true]
      refine safeRun_get fun x hx => ?_
      obtain ⟨found, hfound, hstill⟩ := (hw.trans hx).job job hrow
      rw [hfound]
      split
      · exact safeRun_workOn rfl hfresh hruns (hstays.trans hstill) (hready.leaves (hw.trans hx))
      · exact safeRun_return trivial
    · have hclaimed := leavesJob_claim rfl ha
      refine ⟨.claimed hclaimed, fun own => ?_⟩
      rw [if_pos rfl]
      exact safeRun_workOn rfl hfresh hruns hstays (hready.leaves (hw.trans hclaimed))
  · split
    · exact safeRun_workOn rfl hfresh hruns hstays hready
    · exact safeRun_return trivial

end

end Stoa.RecoveryJob
