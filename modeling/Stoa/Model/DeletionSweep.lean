import Mathlib.Data.List.Sort
import Mathlib.Order.Lattice
import Stoa.Store.Auxiliary

/-! # The sweep for deletions that are under way

One run of the job reads a slice of the table from the place where the last one
stopped, offers every command that it has found to be claimed, and stores the place
for the next run. -/

namespace Stoa.DeletionSweep

open RowStore

/-! ## Rows -/

/-- A row of the table, as far as a scan looks at it. -/
structure TableRow where
  entityType : String
  status : String
  deriving DecidableEq

/-- The filter of the scan. -/
def TableRow.isPending (row : TableRow) : Bool :=
  row.entityType = "account_deletion_command" ∧ (row.status = "pending" ∨ row.status = "running")

/-- The stored place. A cursor that is no key reads as `some none`, and a number
that is not whole as `none`. -/
structure CursorRow (K : Type) where
  cursor : Option (Option K)
  version : Option ℤ
  cycleStartedAt : Option String
  updatedAt : String
  heldRuns : Option ℤ

/-- `offers` counts how often a command was passed to `claim_deletion_command`; no
code reads it. -/
inductive Key (K : Type) where
  | cursor
  | item (key : K)
  | offers (key : K)
  deriving DecidableEq

abbrev Row (K : Type) : Key K → Type
  | .cursor => CursorRow K
  | .item _ => TableRow
  | .offers _ => ℕ

inductive Raised where
  | conflict (message : String)
  | unavailable
  deriving DecidableEq

abbrev Action (K : Type) := Handler (Key K) (Row K) Raised

variable {K : Type}

/-! ## The place -/

/-- `DeletionScanCursor` -/
structure DeletionScanCursor (K : Type) where
  cursor : Option K
  version : Option ℤ
  cycleStartedAt : Option String
  heldRuns : ℤ := 0

/-- What a stored place is read as; `isTimestamp` says what is read as a time. -/
def readPlace (isTimestamp : String → Bool) : Option (CursorRow K) → Except Raised (DeletionScanCursor K)
  | none => .ok ⟨none, none, none, 0⟩
  | some item =>
      match item.version with
      | none => .error (.conflict "invalid deletion scan cursor version")
      | some version =>
          if version < 0 then .error (.conflict "invalid deletion scan cursor version")
          else .ok {
            cursor := item.cursor.join
            version := some version
            cycleStartedAt := item.cycleStartedAt.filter isTimestamp
            heldRuns := max (item.heldRuns.getD 0) 0 }

/-- `get_deletion_scan_cursor` -/
def getDeletionScanCursor (isTimestamp : String → Bool) : Action K (DeletionScanCursor K) := do
  .of (readPlace isTimestamp (← .get .unavailable .cursor))

/-- Nobody has stored a place since it was read. -/
def atVersion (expected : Option ℤ) (stored : Option (CursorRow K)) : Bool :=
  match expected with
  | none => stored.isNone
  | some version => stored.any fun item => item.version = some version

/-- `advance_deletion_scan_cursor` -/
def advanceDeletionScanCursor (isTimestamp : String → Bool) (expectedVersion : Option ℤ)
    (cursor : Option K) (cycleStartedAt : Option String) (updatedAt : String) (heldRuns : ℤ) :
    Action K Bool := do
  let _ ← .of (if expectedVersion.any (· < 0) then
    .error (.conflict "invalid deletion scan cursor version") else .ok ())
  let _ ← .of (if heldRuns < 0 then
    .error (.conflict "invalid deletion scan held run count") else .ok ())
  let _ ← .of (if isTimestamp updatedAt && cycleStartedAt.all isTimestamp then .ok ()
    else .error (.conflict "invalid lifecycle timestamp"))
  let item : CursorRow K := {
    cursor := cursor.map some
    version := some (expectedVersion.getD 0 + 1)
    cycleStartedAt := cycleStartedAt
    updatedAt := updatedAt
    heldRuns := some heldRuns }
  .submit [.put .cursor item fun stored => atVersion expectedVersion stored]

/-! ## Pages -/

/-- The rows that a scan reads, and where it goes on if rows are left. -/
structure Page (K : Type) where
  items : List K
  cursor : Option K

def itemsOf : List ((k : Key K) × Row K k) → List (K × TableRow)
  | [] => []
  | ⟨.item key, row⟩ :: rows => (key, row) :: itemsOf rows
  | ⟨.cursor, _⟩ :: rows => itemsOf rows
  | ⟨.offers _, _⟩ :: rows => itemsOf rows

section

variable [LinearOrder K]

/-- A scan reads rows in the order of their keys; the limit counts the rows that
are read, before the filter. -/
def readPage (limit : ℕ) (rows : List (K × TableRow)) : Page K :=
  let ordered := rows.insertionSort fun a b => a.1 ≤ b.1
  { items := ((ordered.take limit).filter fun row => row.2.isPending).map Prod.fst
    cursor := if limit < ordered.length then ((ordered.take limit).getLast?).map Prod.fst else none }

def isAfter (cursor : Option K) : Key K → Bool
  | .item key => cursor.all (· < key)
  | .cursor => false
  | .offers _ => false

/-- `scan_pending_deletion_commands` -/
def scanPendingDeletionCommands (limit : ℕ) (cursor : Option K) : Action K (Page K) := do
  return readPage (min (max limit 1) 100) (itemsOf (← .list .unavailable (isAfter cursor)))

/-! ## One run -/

/-- What becomes of a command that is offered. -/
inductive Outcome where
  /-- Another run holds it. -/
  | notClaimed
  | continued
  | claimFailed
  | continueFailed
  deriving DecidableEq

def Outcome.failed : Outcome → Bool
  | .notClaimed => false
  | .continued => false
  | .claimFailed => true
  | .continueFailed => true

/-- One run: the limit that the event asks for, the clock, and how the commands fare. -/
structure SweepRun (K : Type) where
  requested : ℤ := 25
  now : String
  outcome : K → Outcome

/-- The limit as the handler of the event passes it on. -/
def SweepRun.limit (r : SweepRun K) : ℕ := (min (max r.requested 1) 100).toNat

def HOLD_LIMIT : ℤ := 3

/-- What the scans of a run have found. -/
structure Discovery (K : Type) where
  commands : List K
  cursor : Option K
  unfinished : Bool := false
  anomalous : Bool := false

/-- Page after page, until there are commands enough. -/
def discover (limit : ℕ) : ℕ → List K → Option K → List K → Action K (Discovery K)
  | 0, commands, cursor, _ =>
      return { commands := commands, cursor := cursor, unfinished := commands.length < limit && cursor.isSome }
  | pages + 1, commands, cursor, seen =>
      if commands.length < limit then do
        let pageLimit := max (limit - commands.length) 1
        let page ← scanPendingDeletionCommands pageLimit cursor
        let commands := commands ++ page.items.take pageLimit
        match page.cursor with
        | none => return { commands := commands, cursor := none }
        | some next =>
            if next ∈ seen then
              return { commands := commands, cursor := cursor, unfinished := true, anomalous := true }
            else discover limit pages commands (some next) (next :: seen)
      else return { commands := commands, cursor := cursor }

/-- `DeletionJobSummary` -/
structure DeletionJobSummary where
  discovered : ℕ := 0
  claimed : ℕ := 0
  continued : ℕ := 0
  retryable : ℕ := 0
  deriving DecidableEq

def DeletionJobSummary.count (summary : DeletionJobSummary) : Outcome → DeletionJobSummary
  | .notClaimed => summary
  | .continued => { summary with claimed := summary.claimed + 1, continued := summary.continued + 1 }
  | .claimFailed => { summary with retryable := summary.retryable + 1 }
  | .continueFailed =>
      { summary with claimed := summary.claimed + 1, retryable := summary.retryable + 1 }

abbrev marksOffer (key : K) : List (Write (Key K) (Row K)) :=
  [.update (.offers key) (fun offers : Option ℕ => offers.getD 0 + 1) fun _ => true]

/-- Offer every command that was found. -/
def offerAll (r : SweepRun K) : List K → DeletionJobSummary → Action K DeletionJobSummary
  | [], summary => return summary
  | key :: rest, summary => do
      let _ ← .submit (marksOffer key)
      offerAll r rest (summary.count (r.outcome key))

/-- Where the next run starts: here again while commands fail and the slice was not
held long enough, else where this run has stopped. -/
def storePlace (isTimestamp : String → Bool) (r : SweepRun K) (place : DeletionScanCursor K)
    (found : Discovery K) (retryable : ℕ) : Action K Bool :=
  let cycleStartedAt := place.cycleStartedAt.getD r.now
  if found.anomalous then return false
  else if 0 < retryable ∧ place.heldRuns < HOLD_LIMIT then
    advanceDeletionScanCursor isTimestamp place.version place.cursor (some cycleStartedAt) r.now
      (place.heldRuns + 1)
  else
    advanceDeletionScanCursor isTimestamp place.version found.cursor
      (if found.cursor.isNone then none else some cycleStartedAt) r.now 0

/-- `run_pending_deletions` -/
def runPendingDeletions (isTimestamp : String → Bool) (r : SweepRun K) : Action K DeletionJobSummary := do
  let place ← getDeletionScanCursor isTimestamp
  let found ← discover r.limit 100 [] place.cursor place.cursor.toList
  let tally ← offerAll r found.commands { discovered := found.commands.length }
  let _ ← storePlace isTimestamp r place found tally.retryable
  return { tally with retryable := tally.retryable + if found.unfinished then 1 else 0 }

/-! ## Service -/

/-- Any number of runs, each of which may stop for good at any point. Other code,
the claims and continuations among it, changes the rows of the table as it likes, and
leaves the stored place alone. A read may fail, and a write may commit and then be
reported to have failed; a write that fails without having committed ends the run as
a stop does. -/
def sweepService (K : Type) [LinearOrder K] (isTimestamp : String → Bool) :
    Service (Key K) (Row K) (SweepRun K) (Except Raised DeletionJobSummary) where
  body r := (runPendingDeletions isTimestamp r).run
  mayStart := fun _ _ => True
  drift := fun t t' => t'.row .cursor = t.row .cursor ∧ ∀ key, t'.row (.offers key) = t.row (.offers key)
  faults := ⟨True, False, True⟩

end

end Stoa.DeletionSweep
