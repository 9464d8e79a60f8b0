import Stoa.Model.LessonCompletion
import Stoa.Store.Auxiliary
import Mathlib.Order.Bounds.Basic

/-! # The streak and what a student does

The streak is the longest run of days that a reader may see, and an action keeps
it exactly when the row it writes over is not the last trace of a day. -/

namespace Stoa.LessonCompletion

open RowStore

/-! ## Runs of days -/

/-- The `n` days that end on `last` are all there. -/
def Run (days : Finset Date) (last : ℤ) (n : ℕ) : Prop :=
  ∀ i < n, ∃ d ∈ days, d.ordinal = last - (i : ℤ)

theorem Date.ext_ordinal {d e : Date} (h : d.ordinal = e.ordinal) : d = e := by
  cases d
  cases e
  simp_all

/-- Every day follows from the day before. -/
theorem Date.induction {P : Date → Prop}
    (step : ∀ current : Date, (∀ before, current.previous = .ok before → P before) → P current)
    (current : Date) : P current :=
  step current fun before hbefore =>
    have := Date.previous_eq_ok.mp hbefore
    have := current.first
    Date.induction step before
termination_by current.ordinal.toNat

section

variable {days days' : Finset Date} {current before today : Date} {last : ℤ} {n : ℕ}

theorem Run.mono (h : Run days last n) (hdays : days ⊆ days') : Run days' last n :=
  fun i hi => (h i hi).imp fun _ hd => ⟨hdays hd.1, hd.2⟩

theorem countBack_of_notMem (h : current ∉ days) : countBack days current = .ok 0 := by
  rw [countBack, if_neg h]

theorem countBack_of_mem (h : current ∈ days) (hprevious : current.previous = .ok before) :
    countBack days current = (countBack days before).map (1 + ·) := by
  rw [countBack, if_pos h]
  split
  · rename_i hbefore
    cases hprevious.symm.trans hbefore
  · rename_i other hbefore
    cases hprevious.symm.trans hbefore
    rfl

theorem countBack_of_first (h : current ∈ days) (hfirst : current.ordinal = 1) :
    countBack days current = .error .overflow := by
  have hprevious : current.previous = .error .overflow := Date.previous_eq_error.mpr ⟨hfirst, rfl⟩
  rw [countBack, if_pos h]
  split
  · rename_i hbefore
    cases hprevious.symm.trans hbefore
    rfl
  · rename_i hbefore
    cases hprevious.symm.trans hbefore

theorem Date.exists_previous (h : current.ordinal ≠ 1) : ∃ before, current.previous = .ok before := by
  cases hprevious : current.previous with
  | ok before => exact ⟨before, rfl⟩
  | error e => exact absurd (Date.previous_eq_error.mp hprevious).1 h

/-- The count is a run that does not go on. -/
theorem countBack_spec (h : countBack days current = .ok n) :
    Run days current.ordinal n ∧ ∃ d ∉ days, d.ordinal = current.ordinal - (n : ℤ) := by
  induction current using Date.induction generalizing n with
  | step current ih =>
      by_cases hcurrent : current ∈ days
      · have hordinal : current.ordinal ≠ 1 := by
          intro hfirst
          rw [countBack_of_first hcurrent hfirst] at h
          cases h
        obtain ⟨before, hbefore⟩ := Date.exists_previous hordinal
        have hprevious := Date.previous_eq_ok.mp hbefore
        rw [countBack_of_mem hcurrent hbefore] at h
        cases hrest : countBack days before with
        | error e =>
            rw [hrest] at h
            cases h
        | ok m =>
            rw [hrest] at h
            simp only [Except.map, Except.ok.injEq] at h
            obtain ⟨hrun, d, hd, heq⟩ := ih before hbefore hrest
            refine ⟨fun i hi => ?_, d, hd, by omega⟩
            cases i with
            | zero => exact ⟨current, hcurrent, by simp⟩
            | succ i =>
                obtain ⟨e, he, hordinal⟩ := hrun i (by omega)
                exact ⟨e, he, by push_cast; omega⟩
      · rw [countBack_of_notMem hcurrent, Except.ok.injEq] at h
        subst h
        exact ⟨fun i hi => absurd hi (Nat.not_lt_zero i), current, hcurrent, by simp⟩

/-- The count comes to an end before a day that is not counted. -/
theorem countBack_ok {d : Date} (hle : d.ordinal ≤ current.ordinal) (hd : d ∉ days) :
    ∃ n, countBack days current = .ok n := by
  induction current using Date.induction with
  | step current ih =>
      by_cases hcurrent : current ∈ days
      · have hne : d.ordinal ≠ current.ordinal := by
          intro heq
          exact hd (Date.ext_ordinal heq ▸ hcurrent)
        have hfirst := d.first
        have hnotFirst : current.ordinal ≠ 1 := by omega
        obtain ⟨before, hbefore⟩ := Date.exists_previous hnotFirst
        have hprevious := Date.previous_eq_ok.mp hbefore
        obtain ⟨n, hn⟩ := ih before hbefore (by omega)
        exact ⟨1 + n, by rw [countBack_of_mem hcurrent hbefore, hn]; rfl⟩
      · exact ⟨0, countBack_of_notMem hcurrent⟩

/-! ## The streak -/

/-- The lengths of the runs that end on a day or on the day before. -/
def runLengths (days : Finset Date) (today : Date) : Set ℕ :=
  {n | Run days today.ordinal n ∨ Run days (today.ordinal - 1) n}

theorem runLengths_mono (hdays : days ⊆ days') : runLengths days today ⊆ runLengths days' today :=
  fun _ hn => hn.imp (fun h => h.mono hdays) fun h => h.mono hdays

/-- No run goes on over a day that is not there. -/
theorem Run.length_le {m : ℕ} (h : Run days last m) {d : Date} (hd : d ∉ days)
    (heq : d.ordinal = last - (n : ℤ)) : m ≤ n := by
  by_contra hlt
  obtain ⟨e, he, hordinal⟩ := h n (by omega)
  exact hd (Date.ext_ordinal (heq.trans hordinal.symm) ▸ he)

/-- The streak that some days make. -/
def streakOfDays (days : Finset Date) (today : Date) : Except Raised ℕ :=
  if days = ∅ then .ok 0
  else if today ∈ days then countBack days today
  else do
    let current ← today.previous
    if current ∈ days then countBack days current else return 0

theorem studyStreak_eq (zurich : Instant → Date) (progress : List ProgressRow) (studyDays : List Date) :
    studyStreak zurich progress today studyDays =
      streakOfDays (completedDays zurich progress ∪ studyDays.toFinset) today := rfl

theorem streakOfDays_greatest (h : streakOfDays days today = .ok n) :
    IsGreatest (runLengths days today) n := by
  unfold streakOfDays at h
  split at h
  · rename_i hempty
    rw [Except.ok.injEq] at h
    subst h
    refine ⟨.inl fun i hi => absurd hi (Nat.not_lt_zero i), ?_⟩
    rintro m (hm | hm) <;>
    · by_contra hpos
      obtain ⟨d, hd, -⟩ := hm 0 (by omega)
      rw [hempty] at hd
      exact absurd hd (Finset.notMem_empty d)
  · split at h
    · rename_i htoday
      obtain ⟨hrun, d, hd, heq⟩ := countBack_spec h
      refine ⟨.inl hrun, ?_⟩
      rintro m (hm | hm)
      · exact hm.length_le hd heq
      · by_contra hlt
        have hn : n ≠ 0 := by
          rintro rfl
          exact hd (Date.ext_ordinal (by simpa using heq) ▸ htoday)
        obtain ⟨e, he, hordinal⟩ := hm (n - 1) (by omega)
        have hsame : d.ordinal = e.ordinal := by omega
        exact hd (Date.ext_ordinal hsame ▸ he)
    · rename_i htoday
      have hzero : ∀ m, Run days today.ordinal m → m = 0 := fun m hm => by
        have := hm.length_le (n := 0) htoday (by simp)
        omega
      cases hprevious : today.previous with
      | error e =>
          rw [hprevious] at h
          cases h
      | ok before =>
          have hordinal := Date.previous_eq_ok.mp hprevious
          rw [hprevious] at h
          change (if before ∈ days then countBack days before else .ok 0) = .ok n at h
          have hcount : countBack days before = .ok n := by
            split at h
            · exact h
            · rename_i hbefore
              rw [countBack_of_notMem hbefore]
              exact h
          obtain ⟨hrun, d, hd, heq⟩ := countBack_spec hcount
          rw [hordinal] at hrun heq
          refine ⟨.inr hrun, ?_⟩
          rintro m (hm | hm)
          · exact (hzero m hm).trans_le (Nat.zero_le n)
          · exact hm.length_le hd heq

/-- A day before today that is not counted is enough for the streak to be read. -/
theorem streakOfDays_ok {d : Date} (hlt : d.ordinal < today.ordinal) (hd : d ∉ days) :
    ∃ n, streakOfDays days today = .ok n := by
  unfold streakOfDays
  split
  · exact ⟨0, rfl⟩
  · split
    · exact countBack_ok hlt.le hd
    · have hfirst := d.first
      have hnotFirst : today.ordinal ≠ 1 := by omega
      obtain ⟨before, hbefore⟩ := Date.exists_previous hnotFirst
      have hprevious := Date.previous_eq_ok.mp hbefore
      rw [hbefore]
      change ∃ n, (if before ∈ days then countBack days before else .ok 0) = .ok n
      split
      · exact countBack_ok (by omega) hd
      · exact ⟨0, rfl⟩

/-- Where today counts, it is needed as well. -/
theorem exists_gap (htoday : today ∈ days) (h : streakOfDays days today = .ok n) :
    ∃ d : Date, d.ordinal < today.ordinal ∧ d ∉ days := by
  have hne : days ≠ ∅ := Finset.ne_empty_of_mem htoday
  rw [streakOfDays, if_neg hne, if_pos htoday] at h
  obtain ⟨-, d, hd, heq⟩ := countBack_spec h
  refine ⟨d, ?_, hd⟩
  have hneq : d.ordinal ≠ today.ordinal := fun hsame => hd (Date.ext_ordinal hsame ▸ htoday)
  omega

end

/-! ## Counted days -/

section

variable {zurich : Instant → Date} {studentId : String} {t t' : Table Key Row} {d : Date}

/-- The student whose row it is. -/
def EvidenceKey.owner : EvidenceKey → String
  | .progress studentId _ => studentId
  | .studyDay studentId _ => studentId

@[simp] theorem EvidenceKey.owner_progress (studentId lessonId : String) :
    (EvidenceKey.progress studentId lessonId).owner = studentId := rfl

@[simp] theorem EvidenceKey.owner_studyDay (studentId : String) (day : Date) :
    (EvidenceKey.studyDay studentId day).owner = studentId := rfl

/-- The day that a row counts for. -/
def dayOf (zurich : Instant → Date) : (k : EvidenceKey) → Item k → Option Date
  | .progress _ _, (row : ProgressRow) =>
      if row.status = "completed" ∧ row.lessonId ≠ "" then row.completedAt.map zurich else none
  | .studyDay _ _, (row : StudyDayRow) => some row.day

/-- The days that count for the streak of a student. -/
def countedDays (zurich : Instant → Date) (studentId : String) (t : Table Key Row) : Finset Date :=
  completedDays zurich (completions (t.rows (isProgress studentId))) ∪
    ((t.rows (isActivity studentId)).filterMap studyDayOf).toFinset

/-- What `study_streak` reads on a day. -/
def streakOn (zurich : Instant → Date) (studentId : String) (t : Table Key Row) (today : Date) :
    Except Raised ℕ :=
  studyStreak zurich (completions (t.rows (isProgress studentId))) today
    ((t.rows (isActivity studentId)).filterMap studyDayOf)

theorem streakOn_eq (today : Date) :
    streakOn zurich studentId t today = streakOfDays (countedDays zurich studentId t) today :=
  studyStreak_eq ..

theorem mem_countedDays : d ∈ countedDays zurich studentId t ↔
    ∃ (k : EvidenceKey) (row : Practice.Owned (Item k)), k.owner = studentId ∧
      t.row (.evidence k) = some row ∧ dayOf zurich k row.item = some d := by
  simp only [countedDays, Finset.mem_union, completedDays, List.mem_toFinset, List.mem_filterMap,
    completions, List.mem_filter, decide_eq_true_eq]
  constructor
  · rintro (⟨item, ⟨⟨⟨k, row⟩, hrow, hitem⟩, hlisted⟩, hday⟩ | ⟨⟨k, row⟩, hrow, hday⟩)
    · obtain ⟨hselect, hrow⟩ := Table.mem_rows.mp hrow
      match k, row, hselect, hrow, hitem with
      | .evidence (.progress owner lesson), row, hselect, hrow, hitem =>
          simp only [progressOf, Option.some.injEq] at hitem
          subst hitem
          refine ⟨.progress owner lesson, row, by simpa [isProgress] using hselect, hrow, ?_⟩
          simpa [dayOf, hlisted] using hday
    · obtain ⟨hselect, hrow⟩ := Table.mem_rows.mp hrow
      match k, row, hselect, hrow, hday with
      | .evidence (.studyDay owner day), row, hselect, hrow, hday =>
          exact ⟨.studyDay owner day, row, by simpa [isActivity] using hselect, hrow, hday⟩
  · rintro ⟨k, row, hstudent, hrow, hday⟩
    match k, row, hstudent, hrow, hday with
    | .progress owner lesson, row, hstudent, hrow, hday =>
        simp only [dayOf] at hday
        split at hday
        · rename_i hlisted
          refine .inl ⟨row.item, ⟨⟨⟨.evidence (.progress owner lesson), row⟩,
            Table.mem_rows.mpr ⟨by simpa [isProgress] using hstudent, hrow⟩, rfl⟩, hlisted⟩, ?_⟩
          simpa [hlisted.1] using hday
        · cases hday
    | .studyDay owner day, row, hstudent, hrow, hday =>
        exact .inr ⟨⟨.evidence (.studyDay owner day), row⟩,
          Table.mem_rows.mpr ⟨by simpa [isActivity] using hstudent, hrow⟩, hday⟩

/-- The days that count without the row of one key. -/
def countedElsewhere (zurich : Instant → Date) (studentId : String) (t : Table Key Row)
    (k : EvidenceKey) : Finset Date :=
  countedDays zurich studentId (t.set (.evidence k) none)

theorem mem_countedElsewhere {k : EvidenceKey} : d ∈ countedElsewhere zurich studentId t k ↔
    ∃ (j : EvidenceKey) (row : Practice.Owned (Item j)), j ≠ k ∧ j.owner = studentId ∧
      t.row (.evidence j) = some row ∧ dayOf zurich j row.item = some d := by
  rw [countedElsewhere, mem_countedDays]
  constructor
  · rintro ⟨j, row, hstudent, hrow, hday⟩
    by_cases hjk : j = k
    · subst hjk
      rw [Table.row_set_self] at hrow
      cases hrow
    · rw [Table.row_set_of_ne _ _ (by simpa using hjk)] at hrow
      exact ⟨j, row, hjk, hstudent, hrow, hday⟩
  · rintro ⟨j, row, hjk, hstudent, hrow, hday⟩
    refine ⟨j, row, hstudent, ?_, hday⟩
    rwa [Table.row_set_of_ne _ _ (by simpa using hjk)]

/-! ## What a save stores -/

variable {k : EvidenceKey} {item : Item k} {ownerId : String}

theorem readOnly_writeGeneration : (writeGeneration ownerId).run.ReadOnly := by
  refine RowStore.Handler.readOnly_bind RowStore.Handler.readOnly_get fun fence => ?_
  cases requireActiveAccountFence fence none <;> trivial

/-- A save stores the item, and leaves every other row. -/
theorem save_alone (h : (save k item ownerId).run.alone t = (.ok (), t')) :
    (∃ row : Practice.Owned (Item k), t'.row (.evidence k) = some row ∧ row.item = item) ∧
      ∀ j, j ≠ .evidence k → t'.row j = t.row j := by
  obtain ⟨generation, u, hgeneration, hrest⟩ := RowStore.Handler.alone_bind_eq_ok h
  have hu : u = t := by
    have hread := Program.ReadOnly.alone (@readOnly_writeGeneration ownerId) t
    rwa [hgeneration] at hread
  subst hu
  change (transact (saveTransaction k item ownerId generation (u.row (.evidence k)))).run.alone u =
    (.ok (), t') at hrest
  rw [transact, RowStore.Handler.alone_submit_bind] at hrest
  split at hrest
  · obtain rfl := (Prod.mk.inj hrest).2
    cases hrow : u.row (.evidence k) with
    | none =>
        refine ⟨⟨⟨ownerId, generation, item⟩, ?_, rfl⟩, fun j hj => ?_⟩
        · simp [saveTransaction, fenceCheck, Write.check, Write.putNew, Write.put, Table.apply]
        · simp [saveTransaction, fenceCheck, Write.check, Write.putNew, Write.put, Table.apply, hj]
    | some stored =>
        refine ⟨⟨{ stored with item := item }, ?_, rfl⟩, fun j hj => ?_⟩
        · simp [saveTransaction, fenceCheck, Write.check, Write.modify, Table.apply, hrow]
        · simp [saveTransaction, fenceCheck, Write.check, Write.modify, Table.apply, hj]
  · cases (Prod.mk.inj hrest).1

theorem mem_countedDays_save (h : (save k item ownerId).run.alone t = (.ok (), t')) :
    d ∈ countedDays zurich studentId t' ↔
      (k.owner = studentId ∧ dayOf zurich k item = some d) ∨
        d ∈ countedElsewhere zurich studentId t k := by
  obtain ⟨⟨stored, hstored, rfl⟩, hother⟩ := save_alone h
  rw [mem_countedDays, mem_countedElsewhere]
  constructor
  · rintro ⟨j, row, howner, hrow, hday⟩
    by_cases hjk : j = k
    · subst hjk
      rw [hstored, Option.some.injEq] at hrow
      subst hrow
      exact .inl ⟨howner, hday⟩
    · rw [hother _ (by simpa using hjk)] at hrow
      exact .inr ⟨j, row, hjk, howner, hrow, hday⟩
  · rintro (⟨howner, hday⟩ | ⟨j, row, hjk, howner, hrow, hday⟩)
    · exact ⟨k, stored, howner, hstored, hday⟩
    · exact ⟨j, row, howner, (hother _ (by simpa using hjk)).trans hrow, hday⟩

end

/-! ## What a student does -/

section

variable {zurich : Instant → Date} {t t' u : Table Key Row}

/-- Answering an exercise, or completing a lesson for the first time or again. -/
inductive Action where
  | answer (studentId : String) (at_ : Instant)
  | complete (r : CompleteLesson)

def Action.studentId : Action → String
  | .answer studentId _ => studentId
  | .complete r => r.studentId

def Action.at_ : Action → Instant
  | .answer _ at_ => at_
  | .complete r => r.completedAt

/-- The row that the action writes, over the one that is there. -/
def Action.key (zurich : Instant → Date) : Action → EvidenceKey
  | .answer studentId at_ => .studyDay studentId (zurich at_)
  | .complete r => .progress r.studentId r.lesson.lessonId

/-- The writes of an action. -/
def Action.perform (zurich : Instant → Date) : Action → Handler Unit
  | .answer studentId at_ => recordStudyDay studentId (zurich at_) "practice" at_
  | .complete r => do
      admitCompletion r
      markLessonCompleted r.studentId r.lesson r.completedAt

theorem consumeQuizCredential_submits {studentId credentialId lessonId : String} :
    (consumeQuizCredential studentId credentialId lessonId).run.Submits fun ops =>
      ∀ w ∈ ops, w.key = .quizCredential studentId credentialId := by
  refine ⟨fun w hw => ?_, fun _ => trivial⟩
  rw [List.mem_singleton.mp hw]
  rfl

/-- The credential is all that is written before the completion. -/
theorem admitCompletion_submits (r : CompleteLesson) :
    (admitCompletion r).run.Submits fun ops =>
      ∀ w ∈ ops, w.key = .quizCredential r.studentId r.credential := by
  unfold admitCompletion
  split
  · refine RowStore.Handler.submits_bind RowStore.Handler.submits_get fun stored => ?_
    cases stored with
    | none => trivial
    | some stored =>
        dsimp only
        split
        · trivial
        · split
          · exact RowStore.Handler.submits_bind consumeQuizCredential_submits fun _ => trivial
          · refine RowStore.Handler.submits_bind consumeQuizCredential_submits fun done => ?_
            cases done <;> trivial
  · refine RowStore.Handler.submits_bind (Program.ReadOnly.submits ?_) fun unanswered => ?_
    · refine RowStore.Handler.readOnly_bind RowStore.Handler.readOnly_get fun _ => ?_
      exact RowStore.Handler.readOnly_bind RowStore.Handler.readOnly_get fun _ =>
        RowStore.Handler.readOnly_pure
    · by_cases hnone : unanswered ≠ []
      · rw [if_pos hnone]
        exact True.intro
      · rw [if_neg hnone]
        exact True.intro

theorem admitCompletion_alone (r : CompleteLesson) (t : Table Key Row) (k : EvidenceKey) :
    ((admitCompletion r).run.alone t).2.row (.evidence k) = t.row (.evidence k) := by
  have hkeep : (admitCompletion r).run.Submits fun ops => ∀ u : Table Key Row,
      u.row (.evidence k) = t.row (.evidence k) →
        (u.apply ops).row (.evidence k) = t.row (.evidence k) := by
    refine (admitCompletion_submits r).imp fun ops hops u hu => ?_
    rw [Table.row_apply_of_notMem _ _ _ fun w hw hkey => ?_]
    · exact hu
    · rw [hops w hw] at hkey
      cases hkey
  generalize (admitCompletion r).run = p at hkeep
  exact hkeep.alone_holds rfl

/-- After an action the days that count are its own and those of all other rows. -/
theorem mem_countedDays_perform {a : Action} {d : Date}
    (h : (a.perform zurich).run.alone t = (.ok (), t')) :
    d ∈ countedDays zurich a.studentId t' ↔
      d = zurich a.at_ ∨ d ∈ countedElsewhere zurich a.studentId t (a.key zurich) := by
  cases a with
  | answer studentId at_ =>
      refine (mem_countedDays_save h).trans (or_congr ?_ Iff.rfl)
      simp [dayOf, Action.studentId, Action.at_, eq_comm]
  | complete r =>
      obtain ⟨_, u, hadmitted, hmark⟩ := RowStore.Handler.alone_bind_eq_ok h
      have hrows : ∀ k, u.row (.evidence k) = t.row (.evidence k) := fun k => by
        have hrow := admitCompletion_alone r t k
        rwa [hadmitted] at hrow
      refine (mem_countedDays_save hmark).trans (or_congr ?_ ?_)
      · simp [dayOf, progressItem, r.lesson.named, Action.studentId, Action.at_, eq_comm]
      · rw [mem_countedElsewhere, mem_countedElsewhere]
        simp only [hrows, Action.studentId, Action.key]

/-- The row that the action writes over, if any, is not the last trace of a day. -/
def Action.Spares (zurich : Instant → Date) (a : Action) (t : Table Key Row) : Prop :=
  ∀ row, t.row (.evidence (a.key zurich)) = some row → ∀ d,
    dayOf zurich (a.key zurich) row.item = some d →
      d = zurich a.at_ ∨ d ∈ countedElsewhere zurich a.studentId t (a.key zurich)

/-- What an action owes to the streak of a day. -/
structure NeverShortened (zurich : Instant → Date) (studentId : String) (today : Date)
    (t t' : Table Key Row) : Prop where
  kept : countedDays zurich studentId t ⊆ countedDays zurich studentId t'
  streak : ∃ n m, streakOn zurich studentId t today = .ok n ∧
    streakOn zurich studentId t' today = .ok m ∧ n ≤ m ∧
    IsGreatest (runLengths (countedDays zurich studentId t) today) n ∧
    IsGreatest (runLengths (countedDays zurich studentId t') today) m

theorem Action.owner_key (a : Action) : (a.key zurich).owner = a.studentId := by
  cases a <;> rfl

theorem countedDays_subset_iff {a : Action} (h : (a.perform zurich).run.alone t = (.ok (), t')) :
    countedDays zurich a.studentId t ⊆ countedDays zurich a.studentId t' ↔ a.Spares zurich t := by
  constructor
  · intro hsubset row hrow d hday
    exact (mem_countedDays_perform h).mp (hsubset (mem_countedDays.mpr
      ⟨a.key zurich, row, a.owner_key, hrow, hday⟩))
  · intro hspares d hd
    refine (mem_countedDays_perform h).mpr ?_
    obtain ⟨k, row, howner, hrow, hday⟩ := mem_countedDays.mp hd
    by_cases hk : k = a.key zurich
    · subst hk
      exact hspares row hrow d hday
    · exact .inr (mem_countedElsewhere.mpr ⟨k, row, hk, howner, hrow, hday⟩)

/-- Working more keeps the streak exactly where the row that is written over is not
the last trace of a day. The calendar has to leave the run an end. -/
theorem never_shortened_iff (a : Action) (h : (a.perform zurich).run.alone t = (.ok (), t')) :
    NeverShortened zurich a.studentId (zurich a.at_) t t' ↔
      a.Spares zurich t ∧ ∃ d : Date, d.ordinal < (zurich a.at_).ordinal ∧
        d ∉ countedDays zurich a.studentId t := by
  have htoday : zurich a.at_ ∈ countedDays zurich a.studentId t' :=
    (mem_countedDays_perform h).mpr (.inl rfl)
  constructor
  · rintro ⟨hkept, n, m, -, hm, -⟩
    rw [streakOn_eq] at hm
    obtain ⟨d, hlt, hd⟩ := exists_gap htoday hm
    exact ⟨(countedDays_subset_iff h).mp hkept, d, hlt, fun hcounted => hd (hkept hcounted)⟩
  · rintro ⟨hspares, d, hlt, hd⟩
    have hkept := (countedDays_subset_iff h).mpr hspares
    have hd' : d ∉ countedDays zurich a.studentId t' := by
      intro hcounted
      rcases (mem_countedDays_perform h).mp hcounted with heq | helsewhere
      · exact absurd (heq ▸ hlt) (lt_irrefl _)
      · obtain ⟨k, row, -, howner, hrow, hday⟩ := mem_countedElsewhere.mp helsewhere
        exact hd (mem_countedDays.mpr ⟨k, row, howner, hrow, hday⟩)
    obtain ⟨n, hn⟩ := streakOfDays_ok hlt hd
    obtain ⟨m, hm⟩ := streakOfDays_ok hlt hd'
    have hgreatest := streakOfDays_greatest hn
    have hgreatest' := streakOfDays_greatest hm
    refine ⟨hkept, n, m, (streakOn_eq _).trans hn, (streakOn_eq _).trans hm, ?_, hgreatest, hgreatest'⟩
    exact hgreatest'.2 (runLengths_mono hkept hgreatest.1)

end

/-! ## A lesson that is completed again -/

namespace Sample

/-- The date at noon of a moment's day, as long as the calendar has one. -/
def zurich (t : Instant) : Date :=
  ⟨max 1 (min 3652059 (t / 86400000000 + 719163)), by omega, by omega⟩

def noon (day : ℤ) : Instant := day * 86400000000 + 43200000000

def lesson : Lesson := ⟨"lesson", "math", "topic", "unit", by decide⟩

def request (day : ℤ) : CompleteLesson := ⟨"student", lesson, "", noon day, noon day, noon day⟩

/-- A review on one day, and the lesson on the day after it. -/
def table : Table Key Row := Table.empty.apply [
  .put (.accountFence "student") ⟨"active", some 1⟩ fun _ => true,
  .put (.evidence (.studyDay "student" (zurich (noon 20000))))
    ⟨"student", 1, ⟨"student", zurich (noon 20000), "practice", noon 20000⟩⟩ fun _ => true,
  .put (.evidence (.progress "student" "lesson"))
    ⟨"student", 1, progressItem "student" lesson (noon 20001)⟩ fun _ => true]

def again : Action := .complete (request 20002)

def after : Table Key Row := ((again.perform zurich).run.alone table).2

theorem again_performed : (again.perform zurich).run.alone table = (.ok (), after) := by
  refine Prod.ext ?_ rfl
  decide +kernel

def review : Action := .answer "student" (noon 20002)

def reviewed : Table Key Row := ((review.perform zurich).run.alone table).2

theorem review_performed : (review.perform zurich).run.alone table = (.ok (), reviewed) := by
  refine Prod.ext ?_ rfl
  decide +kernel

end Sample

/-- A review on the next day keeps the streak. -/
theorem never_shortened_iff_sample :
    NeverShortened Sample.zurich "student" (Sample.zurich (Sample.noon 20002)) Sample.table
      Sample.reviewed := by
  refine (never_shortened_iff Sample.review Sample.review_performed).mpr ⟨?_, Sample.zurich 0, ?_⟩
  · intro row hrow
    have hnone : Sample.table.row (.evidence (Sample.review.key Sample.zurich)) = none := by
      decide +kernel
    rw [hnone] at hrow
    cases hrow
  · decide +kernel

/-- A lesson that is completed again the day after leaves the streak shorter. -/
theorem shortened_by_completing_again :
    streakOn Sample.zurich "student" Sample.table (Sample.zurich (Sample.noon 20002)) = .ok 2 ∧
      streakOn Sample.zurich "student" Sample.after (Sample.zurich (Sample.noon 20002)) = .ok 1 ∧
      ¬ NeverShortened Sample.zurich "student" (Sample.zurich (Sample.noon 20002)) Sample.table
        Sample.after := by
  have hbefore : streakOn Sample.zurich "student" Sample.table (Sample.zurich (Sample.noon 20002)) =
      .ok 2 := by decide +kernel
  have hafter : streakOn Sample.zurich "student" Sample.after (Sample.zurich (Sample.noon 20002)) =
      .ok 1 := by decide +kernel
  refine ⟨hbefore, hafter, ?_⟩
  rintro ⟨-, n, m, hn, hm, hle, -⟩
  rw [hbefore, Except.ok.injEq] at hn
  rw [hafter, Except.ok.injEq] at hm
  omega

end Stoa.LessonCompletion
