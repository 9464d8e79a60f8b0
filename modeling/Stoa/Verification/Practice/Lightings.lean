import Stoa.Model.StarQuiz
import Stoa.Verification.Mastery.Lightings
import Stoa.Verification.Practice.Reviews

/-! # A lighting is celebrated once, and never moves -/

namespace Stoa.Practice

open RowStore Mastery

variable {F : Type} {t u : Table Key (Row F)}

/-! ## What only grows -/

def litUnitAt (t : Table Key (Row F)) (student unit : String) : Option LitUnit :=
  (t.row (.practice (.litUnit student unit))).map fun row : Owned LitUnit => row.item

def LedgerOpen (t : Table Key (Row F)) (student : String) : Prop :=
  (t.row (.practice (.litLedger student))).isSome = true

/-- The evidence of a student as it is stored. -/
def evidenceIn (t : Table Key (Row F)) (student : String) : Evidence where
  completedLessonIds := (t.row (.completedLessons student)).getD ∅
  answeredRight := (t.row (.answeredRight student)).getD ∅
  starQuizPassed := passes (t.rows (isOutcome student))

theorem mem_passes {outcomes : List ((k : Key) × Row F k)} {student unit : String}
    (h : t.Answers (isOutcome student) outcomes) :
    unit ∈ passes outcomes ↔ ∃ k row, t.row (.practice (.starQuizPass student k)) = some row ∧
      (row : Owned StarQuizPass).item.unitId = unit := by
  unfold passes
  rw [List.mem_toFinset, List.mem_map]
  constructor
  · rintro ⟨pass, hpass, rfl⟩
    obtain ⟨⟨k, row⟩, hrow, hitem⟩ := List.mem_filterMap.mp hpass
    obtain ⟨hselected, hstored⟩ := h.mem_iff.mp hrow
    unfold passOf at hitem
    split at hitem
    · rename_i owner unit' row' heq
      cases heq
      obtain rfl : owner = student := of_decide_eq_true hselected
      exact ⟨unit', row', hstored, congrArg StarQuizPass.unitId (Option.some_inj.mp hitem)⟩
    · cases hitem
  · rintro ⟨k, row, hrow, rfl⟩
    refine ⟨(row : Owned StarQuizPass).item, List.mem_filterMap.mpr ⟨⟨_, row⟩, ?_, rfl⟩, rfl⟩
    exact h.mem_iff.mpr ⟨decide_eq_true rfl, hrow⟩

/-- A stored lighting keeps its moment and its source, and stays acknowledged. -/
structure SameLighting (row row' : LitUnit) : Prop where
  unitId : row'.unitId = row.unitId
  litAt : row'.litAt = row.litAt
  source : row'.litAtSource = row.litAtSource
  acknowledged : row.acknowledgedAt.isSome → row'.acknowledgedAt.isSome

/-- What is stored of lightings and of what a student has done only grows. -/
structure Grows (t u : Table Key (Row F)) : Prop where
  lit : ∀ student unit row, litUnitAt t student unit = some row →
    ∃ row', litUnitAt u student unit = some row' ∧ SameLighting row row'
  ledger : ∀ student, LedgerOpen t student → LedgerOpen u student
  completed : ∀ student,
    (evidenceIn t student).completedLessonIds ⊆ (evidenceIn u student).completedLessonIds
  answered : ∀ student, (evidenceIn t student).answeredRight ⊆ (evidenceIn u student).answeredRight
  passed : ∀ student k row, t.row (.practice (.starQuizPass student k)) = some row →
    u.row (.practice (.starQuizPass student k)) = some row

theorem SameLighting.refl (row : LitUnit) : SameLighting row row := ⟨rfl, rfl, rfl, id⟩

theorem SameLighting.trans {a b c : LitUnit} (h : SameLighting a b) (h' : SameLighting b c) :
    SameLighting a c :=
  ⟨h'.unitId.trans h.unitId, h'.litAt.trans h.litAt, h'.source.trans h.source,
    h'.acknowledged ∘ h.acknowledged⟩

theorem Grows.refl (t : Table Key (Row F)) : Grows t t :=
  ⟨fun _ _ row h => ⟨row, h, .refl row⟩, fun _ h => h, fun _ => subset_rfl, fun _ => subset_rfl,
    fun _ _ _ h => h⟩

theorem Grows.trans {t u v : Table Key (Row F)} (h : Grows t u) (h' : Grows u v) : Grows t v where
  lit student unit row hrow := by
    obtain ⟨row', hrow', hsame⟩ := h.lit student unit row hrow
    obtain ⟨row'', hrow'', hsame'⟩ := h'.lit student unit row' hrow'
    exact ⟨row'', hrow'', hsame.trans hsame'⟩
  ledger student hopen := h'.ledger student (h.ledger student hopen)
  completed student := (h.completed student).trans (h'.completed student)
  answered student := (h.answered student).trans (h'.answered student)
  passed student k row hrow := h'.passed student k row (h.passed student k row hrow)

theorem Grows.passes_subset (h : Grows t u) {student : String}
    {rows rows' : List ((k : Key) × Row F k)} (ha : t.Answers (isOutcome student) rows)
    (ha' : u.Answers (isOutcome student) rows') : passes rows ⊆ passes rows' := by
  intro unit hunit
  obtain ⟨k, row, hrow, hid⟩ := (mem_passes ha).mp hunit
  exact (mem_passes ha').mpr ⟨k, row, h.passed student k row hrow, hid⟩

theorem Grows.evidence (h : Grows t u) (student : String) :
    (evidenceIn t student).Within (evidenceIn u student) :=
  ⟨h.completed student, h.answered student,
    h.passes_subset (List.Perm.refl _) (List.Perm.refl _)⟩

/-! ## Histories -/

abbrev LitView (F : Type) := View Key (Row F) LightingCall

/-- The commit opens the ledger of the student. -/
def Opens (student : String) (e : Commit Key (Row F) LightingCall) : Prop :=
  ¬ LedgerOpen e.before student ∧ LedgerOpen e.after student

/-- The unit was lit when the ledger was not open yet. -/
def LitEarly (content : Content) (w : LitView F) (student unit : String) : Prop :=
  (¬ LedgerOpen w.table student ∧ Lit content (evidenceIn w.table student) unit) ∨
    ∃ e ∈ w.history, Opens student e ∧ Lit content (evidenceIn e.before student) unit

/-- What holds of the table and of all commits. -/
structure LitHistory (content : Content) (w : LitView F) : Prop where
  named : ∀ student unit row, litUnitAt w.table student unit = some row → row.unitId = unit
  observed : ∀ student unit row, litUnitAt w.table student unit = some row →
    row.litAtSource = .observed → LedgerOpen w.table student
  backfilled : ∀ student unit row, litUnitAt w.table student unit = some row →
    row.litAtSource = .backfilled → LitEarly content w student unit
  observedThen : ∀ e ∈ w.history, ∀ student unit row, litUnitAt e.before student unit = some row →
    row.litAtSource = .observed → LedgerOpen e.before student
  opened : ∀ student, LedgerOpen w.table student → ∃ e ∈ w.history, Opens student e
  grown : ∀ e ∈ w.history, Grows e.before e.after ∧ Grows e.after w.table
  ordered : w.history.Pairwise fun later earlier => Grows earlier.after later.before

/-- The one view came before the other in the same run. -/
structure Before (v w : LitView F) : Prop where
  suffix : v.history <:+ w.history
  later : ∀ e ∈ w.history, e ∈ v.history ∨ Grows v.table e.before
  grows : Grows v.table w.table

theorem Before.refl (w : LitView F) : Before w w :=
  ⟨List.suffix_refl _, fun _ he => .inl he, .refl _⟩

/-- What a map read has found of its student, the view on which it has read the
lightings, and the units that it knows to be stored. -/
structure Sight (F : Type) where
  student : String
  found : Evidence
  seen : Option (LitView F)
  recorded : List String

/-- A call that has read nothing. -/
def Sight.none (student : String) : Sight F := ⟨student, ⟨∅, ∅, ∅⟩, .none, []⟩

section

variable (content : Content) (N : ℕ) (T : Table Key (Row F))

/-- What holds of one call, where `T` is the table on which call `N` was started. -/
structure Sight.Sound (w : LitView F) (i : ℕ) (x : Sight F) : Prop where
  later : N ≤ i → Grows T w.table
  found : x.found.Within (evidenceIn w.table x.student)
  seen : ∀ v, x.seen = some v → LitHistory content v ∧ Before v w ∧ (N ≤ i → Grows T v.table)
  recorded : ∀ unit ∈ x.recorded, (litUnitAt w.table x.student unit).isSome = true

structure LitSound (w : LitView F) (g : ℕ → Option (Sight F)) : Prop extends LitHistory content w where
  /-- A call started as `N` or later opens the ledger with all that was lit on `T`. -/
  opener : ∀ e ∈ w.history, N ≤ e.id → ∀ student, Opens student e → ∀ unit, unit ≠ "" →
    Lit content (evidenceIn T student) unit → (litUnitAt e.before student unit).isSome = true
  calls : ∀ i x, g i = some x → x.Sound content N T w i

end

variable {content : Content} {N : ℕ} {T : Table Key (Row F)} {w : LitView F}
  {g : ℕ → Option (Sight F)} {i : ℕ} {x y : Sight F}

theorem LitSound.returns (h : LitSound content N T w g) (i : ℕ) :
    LitSound content N T w (Function.update g i none) := by
  refine { h with calls := fun j x hj => ?_ }
  by_cases hji : j = i
  · subst hji
    simp at hj
  · rw [Function.update_of_ne hji] at hj
    exact h.calls j x hj

/-- A call may learn more. -/
theorem LitSound.learn (h : LitSound content N T w g) (hy : y.Sound content N T w i) :
    LitSound content N T w (Function.update g i (some y)) := by
  refine { h with calls := fun j x hj => ?_ }
  by_cases hji : j = i
  · subst hji
    rw [Function.update_self, Option.some_inj] at hj
    exact hj ▸ hy
  · rw [Function.update_of_ne hji] at hj
    exact h.calls j x hj

theorem Before.drift {v : LitView F} (h : Before v w) {t : Table Key (Row F)}
    (hgrows : Grows w.table t) : Before v { w with table := t } :=
  ⟨h.suffix, h.later, h.grows.trans hgrows⟩

theorem Before.commit {v : LitView F} (h : Before v w) {c : LightingCall}
    {ops : List (Write Key (Row F))} (hgrows : Grows w.table (w.table.apply ops)) :
    Before v (w.commit i c ops) where
  suffix := h.suffix.trans (List.suffix_cons _ _)
  later e he := by
    rcases List.mem_cons.mp he with rfl | he
    · exact .inr h.grows
    · exact h.later e he
  grows := h.grows.trans hgrows

/-- A call's knowledge stays true of every later table. -/
theorem Sight.Sound.grow {w' : LitView F} (h : x.Sound content N T w i)
    (hgrows : Grows w.table w'.table) (hbefore : ∀ v, Before v w → Before v w') :
    x.Sound content N T w' i where
  later hi := (h.later hi).trans hgrows
  found := h.found.trans (hgrows.evidence _)
  seen v hv := ⟨(h.seen v hv).1, hbefore v (h.seen v hv).2.1, (h.seen v hv).2.2⟩
  recorded unit hunit := by
    obtain ⟨row, hrow⟩ := Option.isSome_iff_exists.mp (h.recorded unit hunit)
    obtain ⟨row', hrow', -⟩ := hgrows.lit x.student unit row hrow
    exact Option.isSome_iff_exists.mpr ⟨row', hrow'⟩

/-! ## Steps -/

theorem LitEarly.commit {student unit : String} (h : LitEarly content w student unit)
    {c : LightingCall} {ops : List (Write Key (Row F))}
    (hgrows : Grows w.table (w.table.apply ops)) :
    LitEarly content (w.commit i c ops) student unit := by
  rcases h with ⟨hclosed, hlit⟩ | ⟨e, he, hrest⟩
  · by_cases hopen : LedgerOpen (w.table.apply ops) student
    · exact .inr ⟨_, List.mem_cons_self .., ⟨hclosed, hopen⟩, hlit⟩
    · exact .inl ⟨hopen, hlit.mono (hgrows.evidence student)⟩
  · exact .inr ⟨e, List.mem_cons_of_mem _ he, hrest⟩

/-- A commit keeps what holds, if the lightings that it adds are in order, and the
ledger if it opens it. -/
theorem LitSound.commit (h : LitSound content N T w g) {c : LightingCall}
    {ops : List (Write Key (Row F))} (hgrows : Grows w.table (w.table.apply ops))
    (hrows : ∀ student unit row', litUnitAt (w.table.apply ops) student unit = some row' →
      (∃ row, litUnitAt w.table student unit = some row ∧ row'.unitId = row.unitId ∧
        row'.litAtSource = row.litAtSource) ∨
      (row'.unitId = unit ∧ (row'.litAtSource = .observed → LedgerOpen w.table student) ∧
        (row'.litAtSource = .backfilled → LitEarly content w student unit)))
    (hopens : N ≤ i → ∀ student, ¬ LedgerOpen w.table student →
      LedgerOpen (w.table.apply ops) student → ∀ unit, unit ≠ "" →
        Lit content (evidenceIn T student) unit → (litUnitAt w.table student unit).isSome = true) :
    LitSound content N T (w.commit i c ops) g where
  named student unit row' hrow' := by
    rcases hrows student unit row' hrow' with ⟨row, hrow, hid, -⟩ | ⟨hid, -⟩
    · exact hid.trans (h.named student unit row hrow)
    · exact hid
  observed student unit row' hrow' hsource := by
    refine hgrows.ledger student ?_
    rcases hrows student unit row' hrow' with ⟨row, hrow, -, hsame⟩ | ⟨-, hledger, -⟩
    · exact h.observed student unit row hrow (hsame ▸ hsource)
    · exact hledger hsource
  backfilled student unit row' hrow' hsource := by
    refine LitEarly.commit ?_ hgrows
    rcases hrows student unit row' hrow' with ⟨row, hrow, -, hsame⟩ | ⟨-, -, hearly⟩
    · exact h.backfilled student unit row hrow (hsame ▸ hsource)
    · exact hearly hsource
  observedThen e he := by
    rcases List.mem_cons.mp he with rfl | he
    · exact h.observed
    · exact h.observedThen e he
  opened student hopen := by
    by_cases hbefore : LedgerOpen w.table student
    · obtain ⟨e, he, ho⟩ := h.opened student hbefore
      exact ⟨e, List.mem_cons_of_mem _ he, ho⟩
    · exact ⟨_, List.mem_cons_self .., hbefore, hopen⟩
  grown e he := by
    rcases List.mem_cons.mp he with rfl | he
    · exact ⟨hgrows, .refl _⟩
    · exact ⟨(h.grown e he).1, (h.grown e he).2.trans hgrows⟩
  ordered := List.pairwise_cons.mpr ⟨fun e he => (h.grown e he).2, h.ordered⟩
  opener e he hi student ho := by
    rcases List.mem_cons.mp he with rfl | he
    · exact hopens hi student ho.1 ho.2
    · exact h.opener e he hi student ho
  calls j x hj := (h.calls j x hj).grow hgrows fun v hv => hv.commit hgrows

theorem Grows.of_drift [Floating F] {day : Instant → String} {faults : Faults}
    (h : (lightingService F content day faults).drift t u) : Grows t u where
  lit student unit row hrow := ⟨row, (congrArg (Option.map _) (h.1 student unit)).trans hrow, .refl row⟩
  ledger student hopen := by
    unfold LedgerOpen
    rwa [h.2.1 student]
  completed student := (h.2.2.2 student).1
  answered student := (h.2.2.2 student).2
  passed student k row hrow := (h.2.2.1 student k).trans hrow

theorem LitSound.drift {day : Instant → String} [Floating F] {faults : Faults}
    (h : LitSound content N T w g) {t : Table Key (Row F)}
    (hdrift : (lightingService F content day faults).drift w.table t) :
    LitSound content N T { w with table := t } g := by
  have hgrows : Grows w.table t := .of_drift hdrift
  have hrows : ∀ student unit, litUnitAt t student unit = litUnitAt w.table student unit :=
    fun student unit => congrArg (Option.map _) (hdrift.1 student unit)
  have hopen : ∀ student, LedgerOpen t student ↔ LedgerOpen w.table student := fun student => by
    unfold LedgerOpen
    rw [hdrift.2.1 student]
  exact {
    named := fun student unit row hrow => h.named student unit row (hrows student unit ▸ hrow)
    observed := fun student unit row hrow hsource =>
      (hopen student).mpr (h.observed student unit row (hrows student unit ▸ hrow) hsource)
    backfilled := fun student unit row hrow hsource => by
      rcases h.backfilled student unit row (hrows student unit ▸ hrow) hsource with
        ⟨hclosed, hlit⟩ | hearly
      · exact .inl ⟨fun ho => hclosed ((hopen student).mp ho), hlit.mono (hgrows.evidence student)⟩
      · exact .inr hearly
    observedThen := h.observedThen
    opened := fun student ho => h.opened student ((hopen student).mp ho)
    grown := fun e he => ⟨(h.grown e he).1, (h.grown e he).2.trans hgrows⟩
    ordered := h.ordered
    opener := h.opener
    calls := fun j x hj => (h.calls j x hj).grow hgrows fun v hv => hv.drift hgrows }

/-! ## Transactions -/

section

variable {k : PracticeKey} {ownerId : String} {generation : ℤ}

end

/-- What `_lit_facts` makes of the rows it has read: the facts of a table. -/
theorem storedLitFacts_get? {student : String} {rows : List ((k : Key) × Row F k)}
    (ha : t.Answers (isLighting student) rows)
    (hnamed : ∀ unit row, litUnitAt t student unit = some row → row.unitId = unit) (unit : String) :
    (storedLitFacts (rows.filterMap litUnitOf)).get? unit =
      if unit = "" then none else (litUnitAt t student unit).map LitUnit.fact := by
  have hrows : ∀ lit, lit ∈ rows.filterMap litUnitOf ↔ ∃ unit, litUnitAt t student unit = some lit := by
    intro lit
    rw [List.mem_filterMap]
    constructor
    · rintro ⟨⟨k, row⟩, hrow, hitem⟩
      obtain ⟨hselected, hstored⟩ := ha.mem_iff.mp hrow
      unfold litUnitOf at hitem
      split at hitem
      · rename_i owner unit' row' heq
        cases heq
        obtain rfl : owner = student := of_decide_eq_true hselected
        exact ⟨unit', (congrArg (Option.map Owned.item) hstored).trans hitem⟩
      · cases hitem
    · rintro ⟨unit, hunit⟩
      obtain ⟨row, hrow, hitem⟩ := Option.map_eq_some_iff.mp hunit
      have hselected : isLighting student (.practice (.litUnit student unit)) = true := by
        simp [isLighting]
      exact ⟨⟨_, row⟩, ha.mem_iff.mpr ⟨hselected, hrow⟩, congrArg some hitem⟩
  -- A row is stored under the unit that it names.
  have hitems : ∀ lit, lit ∈ ((rows.filterMap litUnitOf).filter fun row => row.unitId ≠ "").reverse ↔
      litUnitAt t student lit.unitId = some lit ∧ lit.unitId ≠ "" := by
    intro lit
    rw [List.mem_reverse, List.mem_filter, hrows, decide_eq_true_iff]
    refine and_congr_left fun _ => ⟨?_, fun h => ⟨_, h⟩⟩
    rintro ⟨unit', hunit'⟩
    rwa [hnamed unit' lit hunit']
  unfold storedLitFacts
  rw [OrderedDict.get?_ofPairs_map _ LitUnit.unitId LitUnit.fact]
  cases hfind : List.find? (fun lit : LitUnit => lit.unitId = unit)
      ((rows.filterMap litUnitOf).filter fun row => row.unitId ≠ "").reverse with
  | some lit =>
      have hid := List.find?_some hfind
      obtain rfl : lit.unitId = unit := of_decide_eq_true hid
      obtain ⟨hstored, hne⟩ := (hitems lit).mp (List.mem_of_find?_eq_some hfind)
      rw [if_neg hne, hstored, Option.map_some]
  | none =>
      have hnone := List.find?_eq_none.mp hfind
      by_cases hunit : unit = ""
      · rw [if_pos hunit, Option.map_none]
      · cases hstored : litUnitAt t student unit with
        | none => simp [hunit]
        | some row =>
            have hid := hnamed unit row hstored
            refine absurd (decide_eq_true hid) (hnone row ((hitems row).mpr ?_))
            exact ⟨hid.symm ▸ hstored, hid.symm ▸ hunit⟩

section

variable {found : Evidence} {student unit : String} {rows : List ((k : Key) × Row F k)} {now : Instant}
  {ledgerOpen : Bool}

variable (content found rows ledgerOpen now) in
theorem resolved_rows :
    Resolved (storedLitFacts (rows.filterMap litUnitOf)) ledgerOpen now
      ((litUnitIds (unitStates content found).values).insertionSort (· ≤ ·))
      (resolveLitFacts ((litUnitIds (unitStates content found).values).insertionSort (· ≤ ·))
        (storedLitFacts (rows.filterMap litUnitOf)) ledgerOpen now) :=
  resolveLitFacts_resolved _

theorem mem_litIds :
    unit ∈ (litUnitIds (unitStates content found).values).insertionSort (· ≤ ·) ↔
      Lit content found unit :=
  (List.mem_insertionSort _).trans mem_litUnitIds

end

/-! ## A map read keeps what holds -/

section

variable {F' : Access Key (Row F)} {α : Type} {c : LightingCall} {student : String}
  {Cond : Program Key (Row F) (Except Raised α) → Table Key (Row F) → Prop}

/-- What is known of the new lightings while they are written down. -/
structure Recording (content : Content) (N : ℕ) (T : Table Key (Row F)) (i : ℕ) (student : String)
    (ledgerOpen : Bool) (v : LitView F) (fresh : List LitFact) (x : Sight F) : Prop where
  own : x.student = student
  seen : x.seen = some v
  ledger : ledgerOpen = true ↔ LedgerOpen v.table student
  source : ∀ fact ∈ fresh, fact.source = if ledgerOpen then .observed else .backfilled
  lit : ∀ fact ∈ fresh, Lit content (evidenceIn v.table student) fact.unitId
  all : N ≤ i → ∀ unit, unit ≠ "" → Lit content (evidenceIn T student) unit →
    (litUnitAt v.table student unit).isSome = true ∨ unit ∈ x.recorded ∨
      ∃ fact ∈ fresh, fact.unitId = unit

/-- What a map read knows of the new lightings that it has resolved. -/
theorem Recording.resolved {rows : List ((k : Key) × Row F k)} {v : LitView F} {found : Evidence}
    {ledgerOpen : Bool} (now : Instant) (hv : LitHistory content v)
    (ha : v.table.Answers (isLighting student) rows)
    (hledger : ledgerOpen = true ↔ LedgerOpen v.table student)
    (hfound : found.Within (evidenceIn v.table student))
    (hwithin : N ≤ i → (evidenceIn T student).Within found) :
    Recording content N T i student ledgerOpen v
      (resolveLitFacts ((litUnitIds (unitStates content found).values).insertionSort (· ≤ ·))
        (storedLitFacts (rows.filterMap litUnitOf)) ledgerOpen now).2
      (⟨student, found, some v, []⟩ : Sight F) := by
  have hresolved := resolved_rows content found rows now ledgerOpen
  refine ⟨rfl, rfl, hledger, fun fact hfact => ?_, fun fact hfact => ?_, fun hN unit hunit hlit => ?_⟩
  · obtain ⟨unit, -, -, -, rfl⟩ := (hresolved.fresh fact).mp hfact
    rfl
  · obtain ⟨unit, hlit, -, -, rfl⟩ := (hresolved.fresh fact).mp hfact
    exact (mem_litIds.mp hlit).mono hfound
  · cases hstored : litUnitAt v.table student unit with
    | some row => exact .inl rfl
    | none =>
        refine .inr (.inr ⟨_, (hresolved.fresh _).mpr ⟨unit, mem_litIds.mpr (hlit.mono (hwithin hN)),
          hunit, ?_, rfl⟩, rfl⟩)
        rw [storedLitFacts_get? ha (hv.named student), hstored, Option.map_none, ite_self]

end

/-! ## Answers -/

section

variable {student unit : String}

end

/-! ## Runs -/

section

variable [Floating F] {day : Instant → String} {faults : Faults}

/-- Every commit lets lightings and evidence grow. -/
def growth (F : Type) [Floating F] (content : Content) (day : Instant → String) (faults : Faults) :
    Contract (lightingService F content day faults) where
  Inv := fun _ => True
  Rely := Grows
  refl := .refl
  trans := .trans
  Move := fun _ => Grows
  move_inv := fun _ _ => trivial
  move_rely := fun _ h => h
  drift_inv := fun _ _ => trivial
  drift_rely := fun _ h => .of_drift h

variable {s s' : State Key (Row F) LightingCall (Except Raised (List String))}

end

/-! ## A unit that lights while the ledger is being opened -/

namespace LightingSample

/-- One unit, lit by its one lesson. -/
def catalog : Content where
  units := [⟨"unit", "topic", "subject", "Unit", 1, none, none⟩]
  lessons := [⟨"lesson", "unit", "Lesson", false, 1, [], 0⟩]
  exercises := fun _ => []
  skillIdsByUnit := fun _ => []

def service : Service Key (Row Float) LightingCall (Except Raised (List String)) :=
  lightingService Float catalog (fun _ => "") .strongReads

def start : Table Key (Row Float) := Table.empty.set (.accountFence "student") (some ⟨"active", some 1⟩)

abbrev Run := State Key (Row Float) LightingCall (Except Raised (List String))

def map (now : Instant) : LightingCall := .readMap ⟨"student", now⟩

/-- The student finishes the lesson. -/
def finishLesson (s : Run) : Run :=
  { s with table := s.table.set (.completedLessons "student") (some {"lesson"}) }

/-- The first map read has read the evidence when the lesson is finished. -/
def lit : Run := finishLesson (((State.initial start).launch service (map 0)).advance 0 3)

/-- It goes on, and the next one stores the unit. -/
def stored : Run := (lit.advance 0 4).solo service (map 1) []

def shown : Run := stored.solo service (map 2) []

theorem stored_history : 1 < stored.history.length := by decide

/-- The commit that opens the ledger. -/
def opening : Commit Key (Row Float) LightingCall := stored.history.get ⟨1, stored_history⟩

theorem shown_returned : 0 < shown.returned.length := by decide

/-- What the last map read answered. -/
def answered : Return Key (Row Float) LightingCall (Except Raised (List String)) :=
  shown.returned.get ⟨0, shown_returned⟩

end LightingSample

end Stoa.Practice
