import Stoa.Model.RecoveryTargets
import Mathlib.Data.List.Perm.Subperm

/-! # Each report once

Through the index of a parent the targets of earlier jobs are read as well. What is collected
is right where none of them stands among the first rows that match. -/

namespace Stoa.RecoveryTargets

open RecoveryJob (Job Target RESEND_JOB_TYPE boundedTargets)

/-! ## Rows -/

theorem summary_pk : "REPORT#".toList = ['R', 'E', 'P', 'O', 'R', 'T', '#'] := by decide

theorem job_pk : "REPORT_RECOVERY_JOB#".toList = 'R' :: 'E' :: 'P' :: 'O' :: 'R' :: 'T' :: '_' ::
    ['R', 'E', 'C', 'O', 'V', 'E', 'R', 'Y', '_', 'J', 'O', 'B', '#'] := by decide

theorem isPrefixOf_append (s r : String) : s.toList.isPrefixOf (s ++ r).toList = true := by
  rw [String.toList_append, List.isPrefixOf_iff_prefix]
  exact List.prefix_append _ _

theorem isSummary_iff {row : Row} : row.isSummary = true ↔ ∃ report, row = .summary report := by
  have hjob : ∀ jobId : String, "REPORT#".toList.isPrefixOf ("REPORT_RECOVERY_JOB#" ++ jobId).toList = false := by
    intro jobId
    rw [String.toList_append, summary_pk, job_pk]
    simp [List.isPrefixOf]
  cases row with
  | summary report =>
      have hpk : "REPORT#".toList.isPrefixOf (Row.summary report).pk.toList = true :=
        isPrefixOf_append "REPORT#" report.reportId
      have hsk : (Row.summary report).sk = "SUMMARY" := rfl
      rw [Row.isSummary, hpk, hsk]
      exact iff_of_true (by decide) ⟨report, rfl⟩
  | job jobId job =>
      have hpk : "REPORT#".toList.isPrefixOf (Row.job jobId job).pk.toList = false := hjob jobId
      rw [Row.isSummary, hpk]
      simp
  | target jobId targetIndex targetId target =>
      have hpk : "REPORT#".toList.isPrefixOf (Row.target jobId targetIndex targetId target).pk.toList = false :=
        hjob jobId
      rw [Row.isSummary, hpk]
      simp

theorem meets_append (row : Row) (a b : List (Attribute × String)) :
    row.meets (a ++ b) = (row.meets a && row.meets b) := List.all_append

theorem meets_condition (row : Row) (name : Attribute) (value : Option String) :
    row.meets (condition name value) = true ↔ ∀ v ∈ given value, row.get name = some v := by
  unfold condition Row.meets
  cases given value with
  | none => simp
  | some v => simp

/-! ## Pages -/

section

variable {t : Rows} (reading : Reading t) (limit : ℕ)

/-- How many rows some pages go through, from a place on. -/
def extent : ℕ → ℕ → ℕ
  | 0, _ => 0
  | pages + 1, place =>
    min limit (reading.stop place) + extent pages (place + min limit (reading.stop place))

theorem take_take_append {α : Type} (n : ℕ) (l m : List α) : (l.take n ++ m).take n = (l ++ m).take n := by
  rw [List.take_append, List.take_append, List.take_take, List.length_take, min_self]
  congr 2
  omega

variable (rows : List Row) (accepts : Row → Bool) (maxTargets : ℕ)

theorem collectPages_full {pages place : ℕ} {collected : List Row} (hlength : collected.length ≤ maxTargets)
    (hfull : maxTargets ≤ collected.length) (list : ℕ → Page) (later : List Row) :
    (collectPages list maxTargets (pages + 1) place collected).1 = (collected ++ later).take maxTargets := by
  have heq : collected.length = maxTargets := le_antisymm hlength hfull
  have hstop : collectPages list maxTargets (pages + 1) place collected = (collected, 0) := if_pos hfull
  rw [hstop, ← heq, List.take_left]

theorem collectPages_last {pages place : ℕ} {collected : List Row} (hfull : ¬ maxTargets ≤ collected.length)
    (hlast : ¬ min limit (reading.stop place) ≤ (rows.drop place).length) :
    collectPages (page reading rows accepts limit) maxTargets (pages + 1) place collected =
      ((collected ++ (rows.drop place).filter accepts).take maxTargets, 1) := by
  have hitems : (page reading rows accepts limit place).items = (rows.drop place).filter accepts := by
    rw [page, List.take_of_length_le (by omega)]
  have hkey : (page reading rows accepts limit place).lastEvaluatedKey = none := if_neg hlast
  refine (if_neg hfull).trans ?_
  simp only [hkey, hitems]

theorem collectPages_next {pages place : ℕ} {collected : List Row} (hfull : ¬ maxTargets ≤ collected.length)
    (hmore : min limit (reading.stop place) ≤ (rows.drop place).length) :
    collectPages (page reading rows accepts limit) maxTargets (pages + 1) place collected =
      let found := collectPages (page reading rows accepts limit) maxTargets pages
        (place + min limit (reading.stop place))
        ((collected ++ ((rows.drop place).take (min limit (reading.stop place))).filter accepts).take maxTargets)
      (found.1, found.2 + 1) := by
  have hkey : (page reading rows accepts limit place).lastEvaluatedKey =
      some (place + min limit (reading.stop place)) := if_pos hmore
  refine (if_neg hfull).trans ?_
  simp only [hkey]
  rfl

/-- What is collected are the first accepted rows of those that the pages go through. -/
theorem collectPages_eq (pages place : ℕ) (collected : List Row) (hlength : collected.length ≤ maxTargets) :
    (collectPages (page reading rows accepts limit) maxTargets pages place collected).1 =
      (collected ++ ((rows.drop place).take (extent reading limit pages place)).filter accepts).take maxTargets := by
  induction pages generalizing place collected with
  | zero => simp [collectPages, extent, List.take_of_length_le hlength]
  | succ pages ih =>
      by_cases hfull : maxTargets ≤ collected.length
      · exact collectPages_full maxTargets hlength hfull _ _
      · by_cases hmore : min limit (reading.stop place) ≤ (rows.drop place).length
        · rw [collectPages_next reading limit rows accepts maxTargets hfull hmore]
          simp only
          rw [ih _ _ (List.length_take_le ..), take_take_append, List.append_assoc, ← List.filter_append,
            ← List.drop_drop, extent, List.take_add]
        · rw [collectPages_last reading limit rows accepts maxTargets hfull hmore]
          simp only
          have hall : (rows.drop place).take (extent reading limit (pages + 1) place) = rows.drop place :=
            List.take_of_length_le (by rw [extent]; omega)
          rw [hall]

/-- Where a page is left to be read, all accepted rows were in sight. -/
theorem collectPages_of_lt (pages place : ℕ) (collected : List Row) (hlength : collected.length ≤ maxTargets)
    (hread : (collectPages (page reading rows accepts limit) maxTargets pages place collected).2 < pages) :
    (collectPages (page reading rows accepts limit) maxTargets pages place collected).1 =
      (collected ++ (rows.drop place).filter accepts).take maxTargets := by
  induction pages generalizing place collected with
  | zero => cases hread
  | succ pages ih =>
      by_cases hfull : maxTargets ≤ collected.length
      · exact collectPages_full maxTargets hlength hfull _ _
      · by_cases hmore : min limit (reading.stop place) ≤ (rows.drop place).length
        · rw [collectPages_next reading limit rows accepts maxTargets hfull hmore] at hread ⊢
          simp only at hread ⊢
          rw [ih _ _ (List.length_take_le ..) (by omega), take_take_append, List.append_assoc, ← List.filter_append,
            ← List.drop_drop, List.take_append_drop]
        · rw [collectPages_last reading limit rows accepts maxTargets hfull hmore]

end

/-! ## What is collected -/

section

variable {t : Rows} (reading : Reading t) (jobType : String) (filters : Filters) (maxTargets : ℤ)

/-- The report has what the filters ask for. -/
structure Matches (report : Report) : Prop where
  status : ∀ v ∈ given (filters.normalized jobType).status, report.status = v
  weekStart : ∀ v ∈ given filters.weekStart, report.weekStart = v
  studentId : ∀ v ∈ given filters.studentId, report.studentId = v
  parentId : ∀ v ∈ given filters.parentId, report.parentId = v

/-- The reports that match, whoever their parents are. -/
def matching : List Row :=
  t.rows.filter fun row => row.isSummary && row.meets (condition .status (filters.normalized jobType).status ++
    condition .weekStart filters.weekStart ++ condition .studentId filters.studentId)

/-- What is collected are reports that match, each of them once; and of a parent they are
those that a scan collects, where all of them can be collected and no page is wanting. -/
structure EachOnce : Prop where
  reports : ∀ rows pages, collectRows reading jobType filters maxTargets = some (rows, pages) →
    ∀ row ∈ rows, row ∈ t.rows ∧ ∃ report, row = .summary report ∧ Matches jobType filters report
  once : ∀ targets pages, collectTargets reading jobType filters maxTargets = some (targets, pages) →
    (targets.map Preview.reportId).Nodup
  agree : ∀ parentId, given filters.parentId = some parentId → ∀ rows pages scanned scannedPages,
    collectRows reading jobType filters maxTargets = some (rows, pages) →
    collectRows reading jobType { filters with parentId := none } maxTargets = some (scanned, scannedPages) →
    pages < MAX_SCAN_PAGES → scannedPages < MAX_SCAN_PAGES →
    (matching (t := t) jobType filters).length ≤ boundedTargets maxTargets →
    ∀ row, row ∈ rows ↔ row ∈ scanned ∧ row.get .parentId = some parentId

/-- The rows with the parent and the week, in the order of the index. -/
def indexed (parentId : String) : List Row :=
  (reading.index parentId).filter fun row => row.meets (condition .weekStart filters.weekStart)

def accepted (row : Row) : Bool :=
  row.meets (condition .status (filters.normalized jobType).status ++ condition .studentId filters.studentId)

/-- A target of an earlier job that matches is yielded by the index only after as many rows
that match as are collected, or beyond the last page. -/
def TargetsLast : Prop :=
  (filters.normalized jobType).status = some (requiredStatus jobType) →
    ∀ parentId, given filters.parentId = some parentId → ∀ before jobId targetIndex targetId target after,
      ((indexed reading filters parentId).take
        (extent reading (boundedTargets maxTargets) MAX_SCAN_PAGES 0)).filter (accepted jobType filters) =
          before ++ .target jobId targetIndex targetId target :: after →
        boundedTargets maxTargets ≤ before.length

variable {reading jobType filters maxTargets}

theorem mem_indexed {parentId : String} {row : Row} : row ∈ indexed reading filters parentId ↔
    row ∈ t.rows ∧ row.get .parentId = some parentId ∧ (row.get .weekStart).isSome = true ∧
      row.meets (condition .weekStart filters.weekStart) = true := by
  rw [indexed, List.mem_filter, (reading.index_perm parentId).mem_iff, List.mem_filter]
  simp [and_assoc]

theorem nodup_rows : t.rows.Nodup := List.Nodup.of_map _ t.keys_nodup

theorem nodup_indexed {parentId : String} : (indexed reading filters parentId).Nodup :=
  (((reading.index_perm parentId).nodup_iff).mpr (nodup_rows.filter _)).filter _

theorem collectRows_some {rows : List Row} {pages : ℕ}
    (h : collectRows reading jobType filters maxTargets = some (rows, pages)) :
    (filters.normalized jobType).status = some (requiredStatus jobType) ∧
      collectPages (listReportsForAdmin reading (filters.normalized jobType) (boundedTargets maxTargets))
        (boundedTargets maxTargets) MAX_SCAN_PAGES 0 [] = (rows, pages) := by
  unfold collectRows at h
  by_cases hstatus : (filters.normalized jobType).status ≠ some (requiredStatus jobType)
  · rw [if_pos hstatus] at h
    cases h
  · rw [if_neg hstatus] at h
    exact ⟨not_not.mp hstatus, Option.some.inj h⟩

theorem list_of_parent {parentId : String} (hparent : given filters.parentId = some parentId) :
    listReportsForAdmin reading (filters.normalized jobType) = fun limit =>
      page reading (indexed reading filters parentId) (accepted jobType filters) limit := by
  unfold listReportsForAdmin
  have hnormalized : given (filters.normalized jobType).parentId = some parentId := hparent
  rw [hnormalized]
  rfl

theorem list_of_scan (hparent : given filters.parentId = none) :
    listReportsForAdmin reading (filters.normalized jobType) = fun limit =>
      page reading reading.scanned (fun row => row.isSummary && row.meets
        (condition .status (filters.normalized jobType).status ++ condition .weekStart filters.weekStart ++
          condition .studentId filters.studentId)) limit := by
  unfold listReportsForAdmin
  have hnormalized : given (filters.normalized jobType).parentId = none := hparent
  rw [hnormalized]
  rfl

/-- A report is known by its id. -/
theorem nodup_reportIds {rows : List Row} (hnodup : rows.Nodup)
    (hrows : ∀ row ∈ rows, row ∈ t.rows ∧ ∃ report, row = .summary report) :
    ((rows.map (targetPreview jobType)).map Preview.reportId).Nodup := by
  rw [List.map_map]
  refine hnodup.map_on fun a ha b hb hab => ?_
  obtain ⟨hamem, report, rfl⟩ := hrows a ha
  obtain ⟨hbmem, other, rfl⟩ := hrows b hb
  have hid : report.reportId = other.reportId := by simpa [targetPreview] using hab
  have hkey : ((Row.summary report).pk, (Row.summary report).sk) =
      ((Row.summary other).pk, (Row.summary other).sk) :=
    congrArg (fun id => ("REPORT#" ++ id, "SUMMARY")) hid
  exact List.inj_on_of_nodup_map t.keys_nodup hamem hbmem hkey

theorem matches_iff {report : Report} : Matches jobType filters report ↔
    (Row.summary report).meets (condition .status (filters.normalized jobType).status) = true ∧
      (Row.summary report).meets (condition .weekStart filters.weekStart) = true ∧
      (Row.summary report).meets (condition .studentId filters.studentId) = true ∧
      ∀ v ∈ given filters.parentId, report.parentId = v := by
  simp only [meets_condition, Row.get, Option.some.injEq]
  exact ⟨fun ⟨hstatus, hweek, hstudent, hparent⟩ => ⟨hstatus, hweek, hstudent, hparent⟩,
    fun ⟨hstatus, hweek, hstudent, hparent⟩ => ⟨hstatus, hweek, hstudent, hparent⟩⟩

theorem mem_matching {row : Row} : row ∈ matching (t := t) jobType filters ↔ row ∈ t.rows ∧
    ∃ report, row = .summary report ∧ Matches jobType { filters with parentId := none } report := by
  rw [matching, List.mem_filter, Bool.and_eq_true, isSummary_iff]
  refine and_congr_right fun _ => ⟨fun ⟨⟨report, hrow⟩, hmeets⟩ => ⟨report, hrow, ?_⟩,
    fun ⟨report, hrow, hmatches⟩ => ⟨⟨report, hrow⟩, ?_⟩⟩
  · subst hrow
    rw [meets_append, meets_append, Bool.and_eq_true, Bool.and_eq_true] at hmeets
    exact matches_iff.mpr ⟨hmeets.1.1, hmeets.1.2, hmeets.2, by simp [given]⟩
  · subst hrow
    obtain ⟨hstatus, hweek, hstudent, -⟩ := matches_iff.mp hmatches
    rw [meets_append, meets_append, Bool.and_eq_true, Bool.and_eq_true]
    exact ⟨⟨hstatus, hweek⟩, hstudent⟩

/-- What the index yields is a report, or a target of an earlier job. -/
theorem summary_or_target {parentId : String} {row : Row} (hrow : row ∈ indexed reading filters parentId)
    (haccepted : accepted jobType filters row = true) (hparent : given filters.parentId = some parentId) :
    (∃ report, row = .summary report ∧ Matches jobType filters report) ∨
      ∃ jobId targetIndex targetId target, row = .target jobId targetIndex targetId target := by
  obtain ⟨-, hof, -, hweek⟩ := mem_indexed.mp hrow
  cases row with
  | summary report =>
      rw [accepted, meets_append, Bool.and_eq_true] at haccepted
      refine .inl ⟨report, rfl, matches_iff.mpr ⟨haccepted.1, hweek, haccepted.2, fun v hv => ?_⟩⟩
      rw [hparent] at hv
      obtain rfl := Option.some.inj hv
      exact Option.some.inj hof
  | job jobId job => cases hof
  | target jobId targetIndex targetId target => exact .inr ⟨jobId, targetIndex, targetId, target, rfl⟩

/-- A row among the first ones stands before the rest. -/
theorem exists_append_of_mem_take {l : List Row} {n : ℕ} {row : Row} (h : row ∈ l.take n) :
    ∃ before after, l = before ++ row :: after ∧ before.length < n := by
  obtain ⟨before, after, heq⟩ := List.append_of_mem h
  refine ⟨before, after ++ l.drop n, ?_, ?_⟩
  · rw [← List.cons_append, ← List.append_assoc, ← heq, List.take_append_drop]
  · have hlength := List.length_take_le n l
    rw [heq, List.length_append, List.length_cons] at hlength
    omega

theorem collected_of_parent {parentId : String} {rows : List Row} {pages : ℕ}
    (hparent : given filters.parentId = some parentId)
    (h : collectRows reading jobType filters maxTargets = some (rows, pages)) :
    rows = (((indexed reading filters parentId).take
        (extent reading (boundedTargets maxTargets) MAX_SCAN_PAGES 0)).filter (accepted jobType filters)).take
      (boundedTargets maxTargets) := by
  obtain ⟨-, hcollected⟩ := collectRows_some h
  rw [list_of_parent hparent] at hcollected
  have heq := collectPages_eq reading (boundedTargets maxTargets) (indexed reading filters parentId)
    (accepted jobType filters) (boundedTargets maxTargets) MAX_SCAN_PAGES 0 [] (Nat.zero_le _)
  rw [hcollected] at heq
  simpa using heq

theorem collected_of_scan {rows : List Row} {pages : ℕ} (hparent : given filters.parentId = none)
    (h : collectRows reading jobType filters maxTargets = some (rows, pages)) :
    rows.Sublist reading.scanned ∧ ∀ row ∈ rows, ∃ report, row = .summary report ∧ Matches jobType filters report := by
  obtain ⟨-, hcollected⟩ := collectRows_some h
  rw [list_of_scan hparent] at hcollected
  have heq : _ = rows := congrArg Prod.fst hcollected
  rw [collectPages_eq _ _ _ _ _ _ _ _ (Nat.zero_le _), List.nil_append, List.drop_zero] at heq
  rw [← heq]
  refine ⟨(List.take_sublist ..).trans (List.filter_sublist.trans (List.take_sublist ..)), fun row hrow => ?_⟩
  have haccepted := (List.mem_filter.mp (List.mem_of_mem_take hrow)).2
  rw [Bool.and_eq_true, isSummary_iff, meets_append, meets_append, Bool.and_eq_true, Bool.and_eq_true] at haccepted
  obtain ⟨⟨report, rfl⟩, ⟨hstatus, hweek⟩, hstudent⟩ := haccepted
  exact ⟨report, rfl, matches_iff.mpr ⟨hstatus, hweek, hstudent, by simp [hparent]⟩⟩

/-- Through the index reports are collected where the targets come last. -/
theorem reports_of_parent {parentId : String} {rows : List Row} {pages : ℕ}
    (hparent : given filters.parentId = some parentId) (hlast : TargetsLast reading jobType filters maxTargets)
    (h : collectRows reading jobType filters maxTargets = some (rows, pages)) :
    rows.Sublist (indexed reading filters parentId) ∧
      ∀ row ∈ rows, ∃ report, row = .summary report ∧ Matches jobType filters report := by
  have hstatus := (collectRows_some h).1
  rw [collected_of_parent hparent h]
  refine ⟨(List.take_sublist ..).trans (List.filter_sublist.trans (List.take_sublist ..)), fun row hrow => ?_⟩
  obtain ⟨before, after, heq, hlt⟩ := exists_append_of_mem_take hrow
  have hmem := List.mem_filter.mp (List.mem_of_mem_take hrow)
  rcases summary_or_target (List.mem_of_mem_take hmem.1) hmem.2 hparent with hreport |
    ⟨jobId, targetIndex, targetId, target, rfl⟩
  · exact hreport
  · have hle := hlast hstatus parentId hparent before jobId targetIndex targetId target after heq
    omega

theorem reports_of_targetsLast (hlast : TargetsLast reading jobType filters maxTargets) {rows : List Row} {pages : ℕ}
    (h : collectRows reading jobType filters maxTargets = some (rows, pages)) :
    rows.Nodup ∧ ∀ row ∈ rows, row ∈ t.rows ∧ ∃ report, row = .summary report ∧ Matches jobType filters report := by
  cases hparent : given filters.parentId with
  | none =>
      obtain ⟨hsublist, hreports⟩ := collected_of_scan hparent h
      have hnodup : reading.scanned.Nodup := (reading.scanned_perm.nodup_iff).mpr nodup_rows
      exact ⟨hnodup.sublist hsublist, fun row hrow =>
        ⟨(reading.scanned_perm.mem_iff).mp (hsublist.subset hrow), hreports row hrow⟩⟩
  | some parentId =>
      obtain ⟨hsublist, hreports⟩ := reports_of_parent hparent hlast h
      exact ⟨nodup_indexed.sublist hsublist, fun row hrow =>
        ⟨(mem_indexed.mp (hsublist.subset hrow)).1, hreports row hrow⟩⟩

/-- A scan that comes to its end collects all reports that match, where there is room for
them. -/
theorem mem_scanned {rows : List Row} {pages : ℕ}
    (h : collectRows reading jobType { filters with parentId := none } maxTargets = some (rows, pages))
    (hpages : pages < MAX_SCAN_PAGES) (hroom : (matching (t := t) jobType filters).length ≤ boundedTargets maxTargets)
    {row : Row} : row ∈ rows ↔ row ∈ matching (t := t) jobType filters := by
  obtain ⟨-, hcollected⟩ := collectRows_some h
  rw [list_of_scan rfl] at hcollected
  have heq : _ = rows := congrArg Prod.fst hcollected
  rw [collectPages_of_lt _ _ _ _ _ _ _ _ (Nat.zero_le _) (by rw [hcollected]; exact hpages), List.nil_append,
    List.drop_zero] at heq
  have hperm := reading.scanned_perm.filter fun row => row.isSummary && row.meets
    (condition .status (filters.normalized jobType).status ++ condition .weekStart filters.weekStart ++
      condition .studentId filters.studentId)
  rw [← heq]
  refine Iff.trans ?_ hperm.mem_iff
  exact iff_of_eq (congrArg (row ∈ ·) (List.take_of_length_le (hperm.length_eq.trans_le hroom)))

/-- The same holds of the index, where the targets come last. -/
theorem mem_of_parent {parentId : String} {rows : List Row} {pages : ℕ}
    (hparent : given filters.parentId = some parentId) (hlast : TargetsLast reading jobType filters maxTargets)
    (h : collectRows reading jobType filters maxTargets = some (rows, pages)) (hpages : pages < MAX_SCAN_PAGES)
    (hroom : (matching (t := t) jobType filters).length ≤ boundedTargets maxTargets) {row : Row}
    (hrow : row ∈ matching (t := t) jobType filters) (hof : row.get .parentId = some parentId) : row ∈ rows := by
  obtain ⟨hnodup, hreports⟩ := reports_of_targetsLast hlast h
  obtain ⟨-, hcollected⟩ := collectRows_some h
  rw [list_of_parent hparent] at hcollected
  have heq := collectPages_of_lt reading (boundedTargets maxTargets) (indexed reading filters parentId)
    (accepted jobType filters) (boundedTargets maxTargets) MAX_SCAN_PAGES 0 [] (Nat.zero_le _)
    (by rw [hcollected]; exact hpages)
  rw [hcollected] at heq
  simp only [List.nil_append, List.drop_zero] at heq
  obtain ⟨hmem, report, rfl, hmatches⟩ := mem_matching.mp hrow
  obtain ⟨hstatus, hweek, hstudent, -⟩ := matches_iff.mp hmatches
  have hsight : Row.summary report ∈ (indexed reading filters parentId).filter (accepted jobType filters) := by
    refine List.mem_filter.mpr ⟨mem_indexed.mpr ⟨hmem, hof, rfl, hweek⟩, ?_⟩
    rw [accepted, meets_append, Bool.and_eq_true]
    exact ⟨hstatus, hstudent⟩
  by_contra hnot
  -- There would be one report more than there is room for.
  have hfull : rows.length = boundedTargets maxTargets := by
    rw [heq, List.length_take, min_eq_left]
    by_contra hlt
    rw [heq, List.take_of_length_le (by omega)] at hnot
    exact hnot hsight
  have hsubset : Row.summary report :: rows ⊆ matching (t := t) jobType filters := by
    intro other hother
    rcases List.mem_cons.mp hother with rfl | hother
    · exact hrow
    · obtain ⟨hmem', report', rfl, hmatches'⟩ := hreports other hother
      exact mem_matching.mpr ⟨hmem', report', rfl, ⟨hmatches'.status, hmatches'.weekStart, hmatches'.studentId,
        by simp [given]⟩⟩
  have hlength := (List.subperm_of_subset (List.nodup_cons.mpr ⟨hnot, hnodup⟩) hsubset).length_le
  rw [List.length_cons] at hlength
  omega

variable (reading jobType filters maxTargets)

/-- What is collected is right exactly where the targets of earlier jobs come last. -/
theorem each_once_iff :
    EachOnce reading jobType filters maxTargets ↔ TargetsLast reading jobType filters maxTargets := by
  constructor
  · intro h hstatus parentId hparent before jobId targetIndex targetId target after heq
    by_contra hlt
    have hsome : collectRows reading jobType filters maxTargets = some
        (collectPages (listReportsForAdmin reading (filters.normalized jobType) (boundedTargets maxTargets))
          (boundedTargets maxTargets) MAX_SCAN_PAGES 0 []) := if_neg (not_not.mpr hstatus)
    have hcollected := collected_of_parent hparent hsome
    have hmem : Row.target jobId targetIndex targetId target ∈ (before ++ .target jobId targetIndex targetId target ::
        after).take (boundedTargets maxTargets) := by
      rw [List.take_append]
      refine List.mem_append_right _ ?_
      rw [show boundedTargets maxTargets - before.length =
        (boundedTargets maxTargets - before.length - 1) + 1 by omega, List.take_succ_cons]
      exact List.mem_cons_self
    rw [← heq, ← hcollected] at hmem
    obtain ⟨-, report, hreport, -⟩ := h.reports _ _ hsome _ hmem
    cases hreport
  · intro hlast
    refine ⟨fun rows pages h => (reports_of_targetsLast hlast h).2, fun targets pages h => ?_,
      fun parentId hparent rows pages scanned scannedPages h hscanned hpages hscannedPages hroom row => ?_⟩
    · obtain ⟨⟨rows, pages'⟩, hrows, heq⟩ := Option.map_eq_some_iff.mp h
      cases heq
      obtain ⟨hnodup, hreports⟩ := reports_of_targetsLast hlast hrows
      exact nodup_reportIds hnodup fun row hrow =>
        ⟨(hreports row hrow).1, (hreports row hrow).2.imp fun _ hreport => hreport.1⟩
    · rw [mem_scanned hscanned hscannedPages hroom]
      constructor
      · intro hrow
        obtain ⟨hmem, report, rfl, hmatches⟩ := (reports_of_targetsLast hlast h).2 row hrow
        refine ⟨mem_matching.mpr ⟨hmem, report, rfl, ⟨hmatches.status, hmatches.weekStart, hmatches.studentId,
          by simp [given]⟩⟩, ?_⟩
        have hof := hmatches.parentId parentId hparent
        exact congrArg some hof
      · rintro ⟨hrow, hof⟩
        exact mem_of_parent hparent hlast h hpages hroom hrow hof

end

/-! ## A report that failed twice -/

namespace Sample

def failed : Report where
  reportId := "r1"
  parentId := "p1"
  studentId := "s1"
  weekStart := "2025-01-06"
  status := "email_failed"
  studentName := none
  emailStatus := some "failed"
  parentEmail := some "parent@example.org"
  htmlS3Key := some "r1.html"
  s3Key := none
  jsonS3Key := none

def job : Job where
  jobType := some RESEND_JOB_TYPE
  status := .completedWithFailures
  reason := "resend"
  createdBy := "operator"
  createdAt := 0
  updatedAt := 1
  targetCount := 1
  pendingCount := 0

/-- The target of the job, whose delivery has failed again. -/
def target : Target where
  snapshot := ⟨some "r1", some "p1", some "s1", some "2025-01-06", none, some "email_failed", some "failed"⟩
  result := .failed
  createdAt := 0
  updatedAt := 1

def rows : Rows where
  rows := [.summary failed, .target "j1" 0 "r1" target, .job "j1" job]
  keys_nodup := by decide

def reading : Reading rows where
  index parentId := rows.rows.filter fun row => row.get .parentId = some parentId && (row.get .weekStart).isSome
  index_perm _ := .refl _
  index_latest _ := by
    have hall : rows.rows.Pairwise fun a b => (b.get .weekStart).getD "" ≤ (a.get .weekStart).getD "" := by decide
    exact hall.sublist List.filter_sublist
  scanned := rows.rows
  scanned_perm := .refl _
  stop _ := 1000
  stop_pos _ := by decide

end Sample

open Sample in
/-- The report is collected twice, as itself and as the target that it was. -/
theorem report_collected_twice :
    ¬ EachOnce reading RESEND_JOB_TYPE { status := "email_failed", parentId := "p1" } 25 := by
  intro h
  have hcollected : (collectTargets reading RESEND_JOB_TYPE { status := "email_failed", parentId := "p1" } 25).map
      (fun found => found.1.map Preview.reportId) = some [some "r1", some "r1"] := by decide +kernel
  obtain ⟨⟨targets, pages⟩, htargets, hids⟩ := Option.map_eq_some_iff.mp hcollected
  have hnodup := h.once targets pages htargets
  rw [hids] at hnodup
  simp at hnodup

end Stoa.RecoveryTargets
