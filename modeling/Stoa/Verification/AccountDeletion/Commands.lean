import Stoa.Model.DeletionCommand

/-! # The writes of a deletion command

Every write raises the number of its command by one and is made under the number
that its writer wrote last. Between the claim of a worker and any of its later
writes the command is therefore the worker's own. -/

namespace Stoa.AccountDeletion

open RowStore

variable {lib : Library} {inventory : Seal}

/-! ## Rows in order -/

/-- The stored digest is the digest of the stored results, until the command is
complete. -/
structure CommandRow.InOrder (lib : Library) (userId commandId : String) (row : CommandRow) : Prop where
  id : row.commandId = commandId
  trimmed : Trimmed userId ∧ Trimmed commandId
  numbered : row.commandVersion.isSome = true
  unfinished : row.status ≠ .complete → row.userId = userId ∧
    ∃ results, row.branchResults = some results ∧
      row.branchResultsDigest = some (AccountDeletion.branchResultsDigest lib results)

def InOrder (lib : Library) (t : Table Key Row) : Prop :=
  ∀ userId commandId (row : CommandRow), t.row (.command userId commandId) = some row →
    row.InOrder lib userId commandId

theorem CommandRow.Begun.inOrder {userId commandId : String} {row : CommandRow}
    (h : row.Begun lib userId commandId) : row.InOrder lib userId commandId where
  id := h.ids.2
  trimmed := h.trimmed
  numbered := by rw [h.commandVersion]; rfl
  unfinished := fun _ => ⟨h.ids.1, _, h.branchResults, h.digest⟩

/-- A digest does not change when the results are read back with decimals. -/
theorem branchResultsDigest_stored (results : Results) :
    branchResultsDigest lib (results.mapValues fun _ => Document.stored) =
      branchResultsDigest lib results := by
  have hentries : (results.mapValues fun _ => Document.stored).entries =
      Document.storedEntries results.entries := by
    change results.entries.map (fun entry => (entry.1, entry.2.stored)) = _
    induction results.entries with
    | nil => rfl
    | cons entry entries ih => exact congrArg (List.cons (entry.1, entry.2.stored)) ih
  unfold branchResultsDigest
  rw [hentries]
  exact congrArg lib.sha256 (Document.canonical_stored (.map results.entries))

/-- A result may be replaced by what it is read back as. -/
theorem branchResultsDigest_insert_stored (results : Results) (branchId : String) (value : Document) :
    branchResultsDigest lib (results.insert branchId value.stored) =
      branchResultsDigest lib (results.insert branchId value) := by
  have hentries : ((results.insert branchId value.stored).entries.map
      fun entry => (entry.1, entry.2.canonical)) =
        (results.insert branchId value).entries.map fun entry => (entry.1, entry.2.canonical) := by
    unfold OrderedDict.insert
    split
    · simp only [List.map_map]
      refine List.map_congr_left fun entry _ => ?_
      simp only [Function.comp_apply]
      split
      · rw [Document.canonical_stored]
      · rfl
    · simp [Document.canonical_stored]
  unfold branchResultsDigest
  simp only [Document.canonical, Document.canonicalEntries_eq_map]
  rw [hentries]

/-! ## What a write does -/

inductive Kind where
  | claim
  | renewal (branchId : String)
  | result (branchId : String)
  | final
  deriving DecidableEq

/-- The lease has not run out at a reading of the clock. -/
def CommandRow.LeasedAt (row : CommandRow) (now : ℤ) : Prop :=
  ∃ expiry, row.leaseExpiresAt = some expiry ∧ now ≤ expiry

/-- The proofs of the branches, and nothing but the one of `branchId` is new. -/
structure Replaces (branchId : String) (row row' : CommandRow) : Prop where
  others : ∀ results results', row.branchResults = some results → row'.branchResults = some results' →
    ∀ other, other ≠ branchId → results'.get? other = results.get? other
  next : ∀ results results', row.branchResults = some results → row'.branchResults = some results' →
    ∃ version value, resultVersion (priorResult results branchId) = some version ∧
      results'.get? branchId = some value ∧ resultVersion value = some (version + 1)

/-- The command and the fence are made terminal, by the proofs that are stored. -/
structure Finishes (inventory : Seal) (w : Worker) (t t' : Table Key Row) (row row' : CommandRow) :
    Prop where
  fence : ∃ fence fence' : FenceRow, t.row (.fence w.userId) = some fence ∧
    t'.row (.fence w.userId) = some fence' ∧ fence.status = .deletionPending ∧
    fence.commandId = some w.commandId ∧ fence'.status = .deleted ∧ fence'.commandId = some w.commandId ∧
    validateDeletionSeal row fence inventory = true
  digest : row'.branchResultsDigest = row.branchResultsDigest

/-- What a worker writes of each kind. -/
def Kind.Writes (inventory : Seal) (w : Worker) (t t' : Table Key Row) (row row' : CommandRow) :
    Kind → Prop
  | .claim => (row.status = .pending ∨ row.status = .running ∧ ¬ row.LeasedAt w.nowEpoch) ∧
      row'.branchResults = row.branchResults ∧ row'.leaseExpiresAt = some w.leaseExpiresAt
  | .renewal branchId => row.LeasedAt (w.turn branchId).renewalEpoch ∧
      row'.branchResults = row.branchResults
  | .result branchId => row.LeasedAt (w.turn branchId).persistEpoch ∧ Replaces branchId row row'
  | .final => row.LeasedAt w.finalEpoch ∧ Finishes inventory w t t' row row'

/-- One write of a worker. -/
structure Change (lib : Library) (inventory : Seal) (kind : Kind) (w : Worker) (t t' : Table Key Row)
    (row row' : CommandRow) : Prop where
  before : t.row w.key = some row
  after : t'.row w.key = some row'
  others : ∀ k, k ≠ w.key → (kind = .final → k ≠ .fence w.userId) → t'.row k = t.row k
  number : ∃ n, row.commandVersion = some n ∧ row'.commandVersion = some (n + 1)
  unfinished : row.status ≠ .complete
  status : row'.status = if kind = .final then .complete else .running
  inOrder : row'.InOrder lib w.userId w.commandId
  writes : kind.Writes inventory w t t' row row'

/-! ## What the history says -/

abbrev Entry := Commit Key Row Worker

def Made (lib : Library) (inventory : Seal) (kind : Kind) (e : Entry) : Prop :=
  ∃ row row', Change lib inventory kind e.call e.before e.after row row'

/-- Call `i` made the latest claim of the command, and nobody else has written it since. -/
def Latest (lib : Library) (inventory : Seal) (history : List Entry) (i : ℕ) (k : Key) : Prop :=
  ∃ newer e older, history = newer ++ e :: older ∧ e.id = i ∧ e.call.key = k ∧
    Made lib inventory .claim e ∧ ∀ e' ∈ newer, e'.call.key = k → e'.id = i

theorem Latest.cons {history : List Entry} {i : ℕ} {k : Key} (h : Latest lib inventory history i k)
    {e : Entry} (he : e.call.key = k → e.id = i) : Latest lib inventory (e :: history) i k := by
  obtain ⟨newer, claim, older, rfl, hid, hkey, hclaim, hnewer⟩ := h
  refine ⟨e :: newer, claim, older, rfl, hid, hkey, hclaim, fun e' he' hk => ?_⟩
  rcases List.mem_cons.mp he' with rfl | he'
  · exact he hk
  · exact hnewer e' he' hk

theorem Latest.claimed {history : List Entry} {e : Entry} (h : Made lib inventory .claim e) :
    Latest lib inventory (e :: history) e.id e.call.key :=
  ⟨[], e, history, rfl, rfl, rfl, h, fun _ h => absurd h (List.not_mem_nil)⟩

/-- A write is in order after the ones before it. -/
def Proper (lib : Library) (inventory : Seal) (e : Entry) (older : List Entry) : Prop :=
  ∃ kind, Made lib inventory kind e ∧
    (kind ≠ .claim → Latest lib inventory older e.id e.call.key)

/-- What stays of a write that made a command terminal. -/
structure Stays (e : Entry) (t : Table Key Row) : Prop where
  command : ∃ row : CommandRow, t.row e.call.key = some row ∧ row.status = .complete ∧
    e.after.row e.call.key = some row
  fence : ∃ row : FenceRow, t.row (.fence e.call.userId) = some row ∧ row.status = .deleted ∧
    e.after.row (.fence e.call.userId) = some row

/-! ## What a worker holds -/

def CommandRow.number (row : CommandRow) : ℤ := row.commandVersion.getD 0

/-- The command of a worker, as it wrote it last. -/
structure Tenure where
  userId : String
  commandId : String
  row : Option CommandRow

abbrev Tenure.key (x : Tenure) : Key := .command x.userId x.commandId

/-- The command has been written since, or is still the worker's. -/
structure Tenure.Sound (lib : Library) (inventory : Seal) (v : View Key Row Worker) (i : ℕ) (x : Tenure)
    (row : CommandRow) : Prop where
  stored : ∃ now : CommandRow, v.table.row x.key = some now ∧ row.number ≤ now.number ∧
    (now.number = row.number → now = row ∧ Latest lib inventory v.history i x.key)
  inOrder : row.InOrder lib x.userId x.commandId

/-- The invariant of a run. -/
structure DeletionSound (lib : Library) (inventory : Seal) (v : View Key Row Worker)
    (g : ℕ → Option Tenure) : Prop where
  inOrder : InOrder lib v.table
  proper : ∀ e older, e :: older <:+ v.history → Proper lib inventory e older
  stays : ∀ e ∈ v.history, Made lib inventory .final e → Stays e v.table
  last : v.history.Pairwise fun later earlier =>
    later.call.key = earlier.call.key → ¬ Made lib inventory .final earlier
  tenures : ∀ i x row, g i = some x → x.row = some row → x.Sound lib inventory v i row

/-! ## One write -/

theorem command_unique {t : Table Key Row} {userId commandId userId' commandId' : String}
    {row row' : CommandRow} (hk : Key.command userId commandId = .command userId' commandId')
    (h : t.row (.command userId commandId) = some row)
    (h' : t.row (.command userId' commandId') = some row') : row = row' := by
  cases hk
  exact Option.some.inj (h.symm.trans h')

theorem fence_unique {t : Table Key Row} {userId userId' : String} {fence fence' : FenceRow}
    (hk : Key.fence userId = .fence userId') (h : t.row (.fence userId) = some fence)
    (h' : t.row (.fence userId') = some fence') : fence = fence' := by
  cases hk
  exact Option.some.inj (h.symm.trans h')

section

variable {kind : Kind} {w : Worker} {t t' : Table Key Row} {row row' : CommandRow}

theorem Change.number_eq (h : Change lib inventory kind w t t' row row') :
    row'.number = row.number + 1 := by
  obtain ⟨n, hn, hn'⟩ := h.number
  simp [CommandRow.number, hn, hn']

/-- A command that another worker has is not written. -/
theorem Change.command_other (h : Change lib inventory kind w t t' row row') {userId commandId : String}
    (hne : Key.command userId commandId ≠ w.key) :
    t'.row (.command userId commandId) = t.row (.command userId commandId) :=
  h.others _ hne fun _ => by simp

theorem Change.inOrder_table (h : Change lib inventory kind w t t' row row') (ht : InOrder lib t) :
    InOrder lib t' := by
  intro userId commandId stored hstored
  by_cases hk : Key.command userId commandId = w.key
  · cases hk
    cases hstored.symm.trans h.after
    exact h.inOrder
  · exact ht userId commandId stored ((h.command_other hk).symm.trans hstored)

/-- A command that is complete, and its fence, stay as they are. -/
theorem Stays.change (h : Change lib inventory kind w t t' row row') {e : Entry} (he : Stays e t) :
    e.call.key ≠ w.key ∧ Stays e t' := by
  obtain ⟨complete, hcomplete, hstatus, hafter⟩ := he.command
  obtain ⟨fence, hfence, hdeleted, hafter'⟩ := he.fence
  have hne : e.call.key ≠ w.key := by
    intro heq
    obtain rfl := command_unique heq hcomplete h.before
    exact h.unfinished hstatus
  refine ⟨hne, ⟨complete, (h.command_other hne).trans hcomplete, hstatus, hafter⟩,
    fence, (h.others _ (by simp) ?_).trans hfence, hdeleted, hafter'⟩
  rintro rfl heq
  obtain ⟨-, ⟨open_, -, hopen, -, hpending, -⟩, -⟩ := h.writes
  obtain rfl := fence_unique heq hfence hopen
  exact absurd (hpending.symm.trans hdeleted) (by decide)

/-- What was final stays so. -/
theorem Change.stays (h : Change lib inventory .final w t t' row row') (i clock : ℕ) :
    Stays ⟨i, w, clock, t, t'⟩ t' := by
  obtain ⟨-, ⟨-, fence, -, hfence, -, -, hdeleted, -⟩, -⟩ := h.writes
  exact ⟨⟨row', h.after, h.status, h.after⟩, ⟨fence, hfence, hdeleted, hfence⟩⟩

theorem Tenure.Sound.own (h : Change lib inventory kind w t t' row row') {i clock : ℕ}
    {history : List Entry} (hlatest : Latest lib inventory (⟨i, w, clock, t, t'⟩ :: history) i w.key) :
    Tenure.Sound lib inventory ⟨t', clock, ⟨i, w, clock, t, t'⟩ :: history⟩ i
      ⟨w.userId, w.commandId, some row'⟩ row' where
  stored := ⟨row', h.after, le_rfl, fun _ => ⟨rfl, hlatest⟩⟩
  inOrder := h.inOrder

/-- The write of another worker. -/
theorem Tenure.Sound.other (h : Change lib inventory kind w t t' row row') {i j clock : ℕ}
    {history : List Entry} {x : Tenure} {held : CommandRow}
    (hx : x.Sound lib inventory ⟨t, clock, history⟩ j held) :
    x.Sound lib inventory ⟨t', clock, ⟨i, w, clock, t, t'⟩ :: history⟩ j held := by
  obtain ⟨now, hnow, hle, hsame⟩ := hx.stored
  refine ⟨?_, hx.inOrder⟩
  by_cases hk : x.key = w.key
  · have hnumber := h.number_eq
    obtain rfl := command_unique hk hnow h.before
    obtain ⟨userId, commandId, own⟩ := x
    cases hk
    exact ⟨row', h.after, by omega, fun hlast => by omega⟩
  · refine ⟨now, (h.command_other hk).trans hnow, hle, fun hlast => ?_⟩
    obtain ⟨heq, hlatest⟩ := hsame hlast
    exact ⟨heq, hlatest.cons fun hkey => absurd hkey.symm hk⟩

end

/-- A write under the number that the worker wrote last keeps the invariant. -/
theorem DeletionSound.commit {v : View Key Row Worker} {g : ℕ → Option Tenure} {i : ℕ} {w : Worker}
    {ops : List (Write Key Row)} {kind : Kind} {row row' : CommandRow}
    (hg : DeletionSound lib inventory v g)
    (h : Change lib inventory kind w v.table (v.table.apply ops) row row')
    (hlatest : kind ≠ .claim → Latest lib inventory v.history i w.key) :
    DeletionSound lib inventory (v.commit i w ops)
      (Function.update g i (some ⟨w.userId, w.commandId, some row'⟩)) := by
  have hmade : Made lib inventory kind ⟨i, w, v.clock, v.table, v.table.apply ops⟩ := ⟨row, row', h⟩
  refine ⟨h.inOrder_table hg.inOrder, fun e older hsuffix => ?_, fun e he hfinal => ?_, ?_,
    fun j x held hj hx => ?_⟩
  · rcases List.suffix_cons_iff.mp hsuffix with heq | hsuffix
    · cases heq
      exact ⟨kind, hmade, hlatest⟩
    · exact hg.proper e older hsuffix
  · rcases List.mem_cons.mp he with rfl | he
    · obtain ⟨complete, complete', hchange⟩ := hfinal
      exact hchange.stays i v.clock
    · exact (Stays.change h (hg.stays e he hfinal)).2
  · refine List.pairwise_cons.mpr ⟨fun e he hkey hfinal => ?_, hg.last⟩
    exact (Stays.change h (hg.stays e he hfinal)).1 hkey.symm
  · by_cases hji : j = i
    · subst hji
      rw [Function.update_self] at hj
      cases hj
      cases hx
      refine Tenure.Sound.own h ?_
      by_cases hkind : kind = .claim
      · subst hkind
        exact Latest.claimed hmade
      · exact (hlatest hkind).cons fun _ => rfl
    · rw [Function.update_of_ne hji] at hj
      exact Tenure.Sound.other h (hg.tenures j x held hj hx)

theorem DeletionSound.forget {v : View Key Row Worker} {g : ℕ → Option Tenure} (i : ℕ)
    (hg : DeletionSound lib inventory v g) (y : Option Tenure)
    (hy : ∀ x, y = some x → x.row = none) : DeletionSound lib inventory v (Function.update g i y) := by
  refine { hg with tenures := fun j x held hj hx => ?_ }
  by_cases hji : j = i
  · subst hji
    rw [Function.update_self] at hj
    cases (hy x hj).symm.trans hx
  · rw [Function.update_of_ne hji] at hj
    exact hg.tenures j x held hj hx

/-- What other code writes keeps the invariant. -/
theorem DeletionSound.drift {v : View Key Row Worker} {g : ℕ → Option Tenure} {t : Table Key Row}
    (hg : DeletionSound lib inventory v g) (ht : OtherWrites lib v.table t) :
    DeletionSound lib inventory { v with table := t } g := by
  refine { hg with
    inOrder := fun userId commandId row hrow => ?_
    stays := fun e he hfinal => ?_
    tenures := fun i x held hi hx => ?_ }
  · cases hstored : v.table.row (.command userId commandId) with
    | none => exact (ht.begun userId commandId row hstored hrow).inOrder
    | some stored =>
        cases (ht.command userId commandId stored hstored).symm.trans hrow
        exact hg.inOrder userId commandId row hstored
  · obtain ⟨⟨row, hrow, hstatus, hafter⟩, fence, hfence, hdeleted, hafter'⟩ := hg.stays e he hfinal
    refine ⟨⟨row, ht.command _ _ row hrow, hstatus, hafter⟩, fence, ht.fence _ fence hfence ?_, hdeleted,
      hafter'⟩
    rw [hdeleted]
    decide
  · have hheld := hg.tenures i x held hi hx
    obtain ⟨now, hnow, hrest⟩ := hheld.stored
    exact { hheld with stored := ⟨now, ht.command _ _ now hnow, hrest⟩ }

end Stoa.AccountDeletion
