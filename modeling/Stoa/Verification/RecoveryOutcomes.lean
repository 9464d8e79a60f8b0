import Stoa.Verification.RecoveryRecords

/-! # What a recovery job says in the end

The record of a job is true where one run does all the work on it, and does not stop
before it is through. -/

namespace Stoa.RecoveryJob

open RowStore

/-! ## The property -/

/-- The commit takes the target, so that its call executes it. -/
def Takes (jobId : String) (sk : TargetSk) (e : Entry) : Prop :=
  ∃ old new : Target, e.before.row (.target jobId sk) = some old ∧ e.after.row (.target jobId sk) = some new ∧
    old.result = .pending ∧ new.result = .inProgress

/-- The commit has the one job before it, and the other after it. -/
def Changes (jobId : String) (e : Entry) (job job' : Job) : Prop :=
  e.before.row (.job jobId) = some job ∧ e.after.row (.job jobId) = some job'

/-- A resumption of the job, by itself, offers the target. -/
def Resumable (jobId : String) (t : Table Key Item) (sk : TargetSk) (target : Target) : Prop :=
  ∀ reason, strip reason.toList ≠ [] → ∃ token targets,
    ((previewResumeJob jobId reason [target.result] MAX_TARGETS).run.alone t).1 = .ok (token, targets) ∧
      resumeTargetPreview (sk, target) ∈ targets

structure RecordTrue (jobId : String) (s : Run) : Prop where
  once : ∀ sk, ∀ e ∈ s.history, ∀ e' ∈ s.history, Takes jobId sk e → Takes jobId sk e' → e = e'
  final : ∀ e ∈ s.history, ∀ job job', Changes jobId e job job' → job.status.Terminal → job'.status = job.status
  cancelled : ∀ e ∈ s.history, ∀ job job', Changes jobId e job job' → job.status = .cancellationRequested →
    job'.status ≠ .cancellationRequested →
    0 < tally jobId .pending e.before ∨ 0 < tally jobId .skippedCancelled e.before → job'.status = .cancelled
  totals : ∀ job : Job, s.table.row (.job jobId) = some job → job.status.Terminal →
    (∀ result, result ≠ .pending → result ≠ .inProgress → job.counts.of result = tally jobId result s.table) ∧
      job.pendingCount = tally jobId .pending s.table
  resumable : ∀ job : Job, s.table.row (.job jobId) = some job → job.status.Terminal →
    ∀ sk (target : Target), s.table.row (.target jobId sk) = some target → target.result ≠ .success →
      Resumable jobId s.table sk target

/-! ## The condition -/

/-- The commit does more to the job than to claim it, or to ask for its cancellation. -/
def Touches (jobId : String) (e : Entry) : Prop := ¬ LeavesJob jobId e.before e.after

/-- One run does all the work on the job, and it runs through. -/
structure OneRun (jobId : String) (t : Table Key Item) (s : Run) : Prop where
  one : ∀ e ∈ s.history, ∀ e' ∈ s.history, Touches jobId e → Touches jobId e' → e.id = e'.id
  through : ∀ e ∈ s.history, Touches jobId e → ∀ r, e.call = .run r → r.jobId = jobId → r.RunsThrough t

/-! ## Every commit -/

section

variable {jobId : String} {t : Table Key Item} {s : Run} {fresh : Job}

theorem isTerminal_of_stays {job job' : Job} (h : job.Stays job') (hterminal : job'.status.Terminal) :
    job'.status = job.status := by
  rcases h.status with heq | ⟨-, hrunning | hrequested⟩
  · exact heq
  · rw [hrunning] at hterminal
    exact absurd hterminal (by decide)
  · rw [hrequested] at hterminal
    exact absurd hterminal (by decide)

/-- What the commits of a run owe, while the others leave the job. -/
def Owes (jobId : String) (t : Table Key Item) (c : Call) (u u' : Table Key Item) : Prop :=
  ∀ r, c = .run r → r.jobId = jobId → r.RunsThrough t → Worked jobId u u'

theorem safe_owes (hfresh : Fresh jobId t fresh) (c : Call) (u : Table Key Item) (hleaves : LeavesJob jobId t u) :
    (service.body c).Safe service.faults (alone jobId) (Owes jobId t c) (fun _ _ _ => True) [] u := by
  by_cases hc : ∃ r, c = .run r ∧ r.jobId = jobId ∧ r.RunsThrough t
  · obtain ⟨r, rfl, hr, hruns⟩ := hc
    change (some <$> executeJob r : Action (Option Ran)).run.Safe _ _ _ _ _ _
    rw [map_eq_pure_bind]
    refine Handler.safe_bind.mpr ((safeRun_executeJob hr hfresh hruns hleaves).mono (fun _ _ _ h _ _ _ _ => h)
      fun result _ _ _ => ?_)
    cases result <;> trivial
  · exact Program.safe_of_forall (fun _ _ r hr hid hruns => absurd ⟨r, hr, hid, hruns⟩ hc)
      (fun _ _ _ => trivial) _ _ _

theorem sound_of_fresh (h : Reachable service t s) (hfresh : Fresh jobId t fresh) :
    Sound (contract jobId) (fun _ _ _ _ _ => True) s :=
  Reachable.sound h (Γ := contract jobId) ⟨fresh, hfresh.row⟩ fun c _ _ => safe_body c

theorem worked_of_oneRun (h : Reachable service t s) (hfresh : Fresh jobId t fresh) (hone : OneRun jobId t s) :
    ∀ e ∈ s.history, Worked jobId e.before e.after := by
  intro e he
  by_cases htouches : Touches jobId e
  · cases ((sound_of_fresh h hfresh).history e he).2.1 with
    | leaves hleaves => exact absurd hleaves htouches
    | works r hc hr hworks =>
        have hothers : ∀ e' ∈ s.history, e'.id ≠ e.id → (alone jobId).Rely e'.before e'.after := fun e' he' hne => by
          by_contra htouches'
          exact hne (hone.one e' he' e he htouches' htouches)
        have howes : Owes jobId t e.call e.before e.after :=
          Reachable.owned h (fun _ _ => trivial) (fun c u _ hleaves => safe_owes hfresh c u hleaves) hothers
            (fun u u' heq => heq ▸ .refl jobId u) e he rfl
        exact howes r hc hr (hone.through e he htouches r hc hr)
  · exact .claimed (not_not.mp htouches)

/-! ## The job along a run -/

/-- The job is there as it was created, and true when it is terminal. -/
structure Told (jobId : String) (fresh : Job) (u : Table Key Item) (job : Job) : Prop where
  row : u.row (.job jobId) = some job
  describes : job.Describes fresh
  size : size jobId u = fresh.targetCount
  truthful : job.status.Terminal → job.Truthful jobId u

theorem Job.Truthful.congr {job job' : Job} {u v : Table Key Item} (h : job.Truthful jobId u)
    (hcounts : job'.counts = job.counts) (hpending : job'.pendingCount = job.pendingCount)
    (hstatus : job'.status = job.status) (htarget : ∀ sk, v.row (.target jobId sk) = u.row (.target jobId sk))
    (htally : ∀ result, tally jobId result v = tally jobId result u) : job'.Truthful jobId v where
  counts result hne hne' := by rw [hcounts, h.counts result hne hne', htally]
  pendingCount := by rw [hpending, h.pendingCount, htally]
  done sk target hrow := h.done sk target ((htarget sk).symm.trans hrow)
  cancelled hskipped := by
    rw [hstatus]
    exact h.cancelled (hcounts ▸ hskipped)

theorem Told.worked {u v : Table Key Item} (h : ∃ job, Told jobId fresh u job) (hworked : Worked jobId u v) :
    ∃ job, Told jobId fresh v job := by
  obtain ⟨job, htold⟩ := h
  cases hworked with
  | claimed hleaves =>
      obtain ⟨job', hrow', hstays⟩ := hleaves.job job htold.row
      refine ⟨job', hrow', ?_, hleaves.size.trans htold.size, fun hterminal => ?_⟩
      · exact ⟨hstays.jobType.trans htold.describes.jobType, hstays.targetCount.trans htold.describes.targetCount,
          hstays.failureThreshold.trans htold.describes.failureThreshold⟩
      · have hstatus := isTerminal_of_stays hstays hterminal
        exact (htold.truthful (hstatus ▸ hterminal)).congr hstays.counts hstays.pendingCount hstatus hleaves.target
          fun _ => hleaves.tally
  | target sk old new hmove open_ hrow hopen =>
      cases htold.row.symm.trans hrow
      exact ⟨job, hmove.job.trans hrow, htold.describes, hmove.size.trans htold.size, fun hterminal =>
        absurd hterminal hopen⟩
  | closed old new hmove hopen hkeeps htrue =>
      cases htold.row.symm.trans hmove.before
      refine ⟨new, hmove.after, ?_, hmove.size.trans htold.size, fun _ => ?_⟩
      · exact ⟨hkeeps.jobType.trans htold.describes.jobType, hkeeps.targetCount.trans htold.describes.targetCount,
          hkeeps.failureThreshold.trans htold.describes.failureThreshold⟩
      · exact htrue.congr rfl rfl rfl hmove.target fun _ => hmove.tally

theorem told_of_oneRun (h : Reachable service t s) (hfresh : Fresh jobId t fresh) (hone : OneRun jobId t s) :
    ∃ job, Told jobId fresh s.table job := by
  refine h.along (P := fun u => ∃ job, Told jobId fresh u job) (fun _ _ heq => heq) ?_ fun e he htold =>
    Told.worked htold (worked_of_oneRun h hfresh hone e he)
  exact ⟨fresh, hfresh.row, ⟨rfl, rfl, rfl⟩, hfresh.size, fun hterminal => absurd hterminal hfresh.opened⟩

/-! ## Resumption -/

theorem Status.Terminal.resumable {status : Status} (h : status.Terminal) : status ∈ RESUMABLE_SOURCE_STATUSES := by
  cases status <;> first | decide | exact absurd h (by decide)

theorem normalizedResumeResults_singleton {result : TargetResult} (h : result ∈ RESUMABLE_TARGET_RESULTS) :
    normalizedResumeResults [result] = .ok [result] := by
  cases result <;> first | rfl | exact absurd h (by decide)

theorem collectResumeTargets_all {targets : List (TargetSk × Target)} (hbounded : targets.length ≤ MAX_TARGETS)
    (filters : List TargetResult) : collectResumeTargets targets filters MAX_TARGETS =
      (targets.filter fun target => target.2.result ∈ filters).map resumeTargetPreview := by
  unfold collectResumeTargets
  rw [List.take_of_length_le]
  exact (List.length_filter_le ..).trans hbounded

/-- A terminal job offers each target that has a result to be resumed. -/
theorem Told.resumable {u : Table Key Item} {job : Job} (h : Told jobId fresh u job) (hfresh : Fresh jobId t fresh)
    (hterminal : job.status.Terminal) {sk : TargetSk} {target : Target} (hrow : u.row (.target jobId sk) = some target)
    (hresult : target.result ≠ .success) : Resumable jobId u sk target := by
  intro reason hreason
  have hmem : target.result ∈ RESUMABLE_TARGET_RESULTS :=
    ((h.truthful hterminal).done sk target hrow).resolve_left hresult
  have hthreshold : job.failureThreshold ≠ 0 := by
    rw [h.describes.failureThreshold, hfresh.failureThreshold]
    decide
  obtain ⟨jobType, htype, hknown⟩ : ∃ jobType, job.jobType = some jobType ∧
      ¬ (jobType ≠ RESEND_JOB_TYPE ∧ jobType ≠ GENERATION_RETRY_JOB_TYPE) := by
    rw [h.describes.jobType]
    rcases hfresh.jobType with heq | heq
    · exact ⟨_, heq, fun hne => hne.1 rfl⟩
    · exact ⟨_, heq, fun hne => hne.2 rfl⟩
  have hsource : (getResumableSourceJob jobId).run.alone u = (.ok (job, jobType), u) := by
    unfold getResumableSourceJob getRecoveryJob
    rw [Handler.alone_get_bind, h.row]
    dsimp only
    rw [if_neg (not_not.mpr hterminal.resumable), htype]
    dsimp only
    rw [if_neg hthreshold, if_neg hknown]
    rfl
  have hanswers : u.Answers (isTargetOf jobId) (u.rows (isTargetOf jobId)) := List.Perm.refl _
  have hlength : (targetsIn (u.rows (isTargetOf jobId))).length ≤ MAX_TARGETS := by
    rw [length_targetsIn hanswers, h.size]
    exact hfresh.bounded
  have hlist : (listAllJobTargets jobId).run.alone u = (.ok (targetsIn (u.rows (isTargetOf jobId))), u) := rfl
  unfold previewResumeJob
  rw [if_neg hreason, Handler.alone_bind_ok hsource]
  dsimp only
  rw [if_neg hknown, normalizedResumeResults_singleton hmem, Handler.alone_of_bind, Handler.alone_bind_ok hlist,
    collectResumeTargets_all hlength]
  refine ⟨_, _, rfl, List.mem_map_of_mem ?_⟩
  rw [List.mem_filter]
  exact ⟨(mem_targetsIn hanswers).mpr hrow, by simp⟩

/-! ## The record -/

theorem takes_once (h : Reachable service t s) (hfresh : Fresh jobId t fresh) {sk : TargetSk} {e e' : Entry}
    (he : e ∈ s.history) (he' : e' ∈ s.history) (htakes : Takes jobId sk e) (htakes' : Takes jobId sk e') : e = e' := by
  refine (sound_of_fresh h hfresh).commit_unique (P := fun u v => ∃ old new : Target,
    u.row (.target jobId sk) = some old ∧ v.row (.target jobId sk) = some new ∧
      old.result = .pending ∧ new.result = .inProgress) (fun d _ u v htaken hrely htaken' => ?_) he he' htakes htakes'
  obtain ⟨-, new, -, hnew, -, hprogress⟩ := htaken
  obtain ⟨old, -, hold, -, hpending, -⟩ := htaken'
  obtain ⟨target, htarget, hkeeps⟩ := hrely.target sk new hnew
  cases hold.symm.trans htarget
  refine hkeeps ?_ hpending
  rw [hprogress]
  decide

theorem Worked.final {u v : Table Key Item} {job job' : Job} (h : Worked jobId u v)
    (hrow : u.row (.job jobId) = some job) (hrow' : v.row (.job jobId) = some job') (hterminal : job.status.Terminal) :
    job'.status = job.status := by
  cases h with
  | claimed hleaves =>
      obtain ⟨next, hnext, hstays⟩ := hleaves.job job hrow
      cases hrow'.symm.trans hnext
      rcases hstays.status with heq | ⟨hqueued | hrunning, -⟩
      · exact heq
      · exact absurd hqueued hterminal.1
      · exact absurd hrunning hterminal.2.1
  | target sk old new hmove open_ hopened hopen =>
      cases hrow'.symm.trans (hmove.job.trans hrow)
      rfl
  | closed old new hmove hopen hkeeps htrue =>
      cases hrow.symm.trans hmove.before
      exact absurd hterminal hopen

theorem Job.Truthful.tally_pending {job : Job} {u : Table Key Item} (h : job.Truthful jobId u) :
    tally jobId .pending u = 0 :=
  tally_eq_zero fun sk target hrow heq => by
    have hdone := h.done sk target hrow
    rw [heq] at hdone
    rcases hdone with hsuccess | hmem
    · cases hsuccess
    · exact absurd hmem (by decide)

theorem Worked.cancelled {u v : Table Key Item} {job job' : Job} (h : Worked jobId u v)
    (hrow : u.row (.job jobId) = some job) (hrow' : v.row (.job jobId) = some job')
    (hrequested : job.status = .cancellationRequested) (hnext : job'.status ≠ .cancellationRequested)
    (hleft : 0 < tally jobId .pending u ∨ 0 < tally jobId .skippedCancelled u) : job'.status = .cancelled := by
  cases h with
  | claimed hleaves =>
      obtain ⟨next, hnext', hstays⟩ := hleaves.job job hrow
      cases hrow'.symm.trans hnext'
      rcases hstays.status with heq | ⟨hqueued | hrunning, -⟩
      · exact absurd (heq.trans hrequested) hnext
      · cases hrequested.symm.trans hqueued
      · cases hrequested.symm.trans hrunning
  | target sk old new hmove open_ hopened hopen =>
      cases hrow'.symm.trans (hmove.job.trans hrow)
      exact absurd hrequested hnext
  | closed old new hmove hopen hkeeps htrue =>
      cases hrow'.symm.trans hmove.after
      refine htrue.cancelled ?_
      rcases hleft with hpending | hskipped
      · rw [htrue.tally_pending] at hpending
        cases hpending
      · have hcount : job'.counts.skippedCancelled = _ := htrue.counts .skippedCancelled (by decide) (by decide)
        rwa [hcount]

/-- Where one run does all the work on a job, and runs through, the job's record is true
in every state. -/
theorem record_true (h : Reachable service t s) (hfresh : Fresh jobId t fresh) (hone : OneRun jobId t s) :
    RecordTrue jobId s where
  once _ _ he _ he' htakes htakes' := takes_once h hfresh he he' htakes htakes'
  final e he _ _ hchanges hterminal := (worked_of_oneRun h hfresh hone e he).final hchanges.1 hchanges.2 hterminal
  cancelled e he _ _ hchanges hrequested hnext hleft :=
    (worked_of_oneRun h hfresh hone e he).cancelled hchanges.1 hchanges.2 hrequested hnext hleft
  totals job hrow hterminal := by
    obtain ⟨told, htold⟩ := told_of_oneRun h hfresh hone
    cases hrow.symm.trans htold.row
    exact ⟨(htold.truthful hterminal).counts, (htold.truthful hterminal).pendingCount⟩
  resumable job hrow hterminal sk target htarget hresult := by
    obtain ⟨told, htold⟩ := told_of_oneRun h hfresh hone
    cases hrow.symm.trans htold.row
    exact htold.resumable hfresh hterminal htarget hresult

end

/-! ## Three runs -/

namespace RecordSample

def snapshot (reportId : String) : Snapshot :=
  ⟨some reportId, some "parent", some "student", some "2024-01-01", none, none, none⟩

def target (reportId : String) : Target where
  snapshot := snapshot reportId
  createdAt := 0
  updatedAt := 0

def job : Job where
  jobType := some RESEND_JOB_TYPE
  status := .queued
  reason := "bounced"
  createdBy := "operator"
  createdAt := 0
  updatedAt := 0
  targetCount := 1
  pendingCount := 1

def stored : Table Key Item := Table.empty.apply
  [.put (.job "job") job fun _ => true, .put (.target "job" (0, "report")) (target "report") fun _ => true]

def settled : Settlement := ⟨.success, some "report", some "sent", some "sent", none, none, 2⟩

/-- A delivery that is given so much time. -/
def delivery (remainingTimeMs : ℤ) : Delivery where
  jobId := "job"
  expectedJobType := RESEND_JOB_TYPE
  now := 1
  closedAt := 3
  remainingTimeMs _ := remainingTimeMs
  attemptedAt _ := 1
  skippedAt _ := 1
  execute _ := some settled

/-- One run, by itself. -/
def ran (remainingTimeMs : ℤ) : Run :=
  ((State.initial stored).launch service (.run (delivery remainingTimeMs))).advance 0 10

/-- The event is delivered again when the first run has listed the targets. -/
def twice : Run :=
  (((((State.initial stored).launch service (.run (delivery 60000))).advance 0 3).launch service
    (.run (delivery 60000))).advance 1 3 |>.advance 0 10).advance 1 10

theorem ran_reachable (remainingTimeMs : ℤ) : Reachable service stored (ran remainingTimeMs) :=
  (State.launch_steps trivial).trans (State.advance_steps _ _ _)

theorem twice_reachable : Reachable service stored twice :=
  ((((State.launch_steps trivial).trans (State.advance_steps _ _ _)).trans (State.launch_steps trivial)).trans
    (State.advance_steps _ _ _)).trans ((State.advance_steps _ _ _).trans (State.advance_steps _ _ _))

theorem stored_fresh : Fresh "job" stored job where
  row := rfl
  jobType := .inl rfl
  opened := by decide
  counts := rfl
  failureThreshold := rfl
  size := by decide
  bounded := by decide
  pending sk target hrow := by
    by_cases hsk : sk = (0, "report")
    · subst hsk
      cases hrow
      rfl
    · have hnone : stored.row (.target "job" sk) = none := (Table.row_apply_of_notMem _ _ _ fun w hw heq => by
        rcases List.mem_cons.mp hw with rfl | hw
        · cases heq
        · rw [List.mem_singleton.mp hw] at heq
          cases heq
          exact hsk rfl).trans rfl
      cases hnone.symm.trans hrow

theorem ran_oneRun : OneRun "job" stored (ran 60000) := by
  have hown : ∀ e ∈ (ran 60000).history, e.id = 0 ∧ e.call = .run (delivery 60000) := fun e he => by
    have hstart : ∀ d p, ((State.initial stored).launch service (.run (delivery 60000))).running 0 = some (d, p) →
        d = .run (delivery 60000) := by
      rintro d p ⟨⟩
      rfl
    exact (State.advance_history hstart e he).resolve_left List.not_mem_nil
  refine ⟨fun e he e' he' _ _ => (hown e he).1.trans (hown e' he').1.symm, fun e he _ r hr _ => ?_⟩
  cases (hown e he).2.symm.trans hr
  refine ⟨fun _ => by simp [delivery, TIME_REMAINING_FLOOR_MS], fun rows _ => ?_⟩
  rw [List.countP_eq_zero.mpr fun x _ => by simp [Delivery.fails, delivery, settled]]
  decide

end RecordSample

open RecordSample

/-- A single target, executed by one run. -/
theorem record_true_alone : ((ran 60000).table.row (.job "job") : Option Job).map Job.status = some .completed ∧
    RecordTrue "job" (ran 60000) :=
  ⟨by decide, record_true (ran_reachable 60000) stored_fresh ran_oneRun⟩

/-- A run that is out of time leaves a target that nothing takes up again, and a second run
writes its own totals over those of the first. -/
theorem record_false : Fresh "job" stored job ∧
    (Reachable service stored (ran 0) ∧ ¬ RecordTrue "job" (ran 0)) ∧
    Reachable service stored twice ∧ ¬ RecordTrue "job" twice := by
  refine ⟨stored_fresh, ⟨ran_reachable 0, fun h => ?_⟩, twice_reachable, fun h => ?_⟩
  · have hjob : ((ran 0).table.row (.job "job") : Option Job).map Job.status = some .completedWithFailures := by
      decide
    have htarget : ((ran 0).table.row (.target "job" (0, "report")) : Option Target).map Target.result =
        some .pending := by decide
    obtain ⟨job, hrow, hstatus⟩ := Option.map_eq_some_iff.mp hjob
    obtain ⟨target, hrow', hresult⟩ := Option.map_eq_some_iff.mp htarget
    obtain ⟨token, targets, hpreview, -⟩ := h.resumable job hrow (by rw [hstatus]; decide) _ target hrow'
      (by rw [hresult]; decide) "again" (by decide)
    have hrefused : ((previewResumeJob "job" "again" [.pending] MAX_TARGETS).run.alone (ran 0).table).1.toOption =
        none := by decide
    rw [hresult] at hpreview
    rw [hpreview] at hrefused
    cases hrefused
  · have hjob : (twice.table.row (.job "job") : Option Job).map (fun job => (job.status, job.counts.success)) =
        some (.completed, 0) := by decide
    have htally : tally "job" .success twice.table = 1 := by decide
    obtain ⟨job, hrow, hsaid⟩ := Option.map_eq_some_iff.mp hjob
    obtain ⟨hstatus, hsuccess⟩ := Prod.mk.inj hsaid
    have hcount : job.counts.success = _ :=
      (h.totals job hrow (by rw [hstatus]; decide)).1 .success (by decide) (by decide)
    rw [hsuccess, htally] at hcount
    cases hcount

end Stoa.RecoveryJob
