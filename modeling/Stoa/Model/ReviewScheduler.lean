import Stoa.Model.Values

/-! # When a question should come back

The scheduler is written over any arithmetic with the operations it uses; the
program runs it on floating-point numbers. -/

namespace Stoa.Practice

/-- The arithmetic that the scheduler uses. -/
class Floating (F : Type) extends Add F, Sub F, Mul F, Div F, Neg F, OfScientific F where
  ofInt : ℤ → F
  le : F → F → Bool
  exp : F → F
  pow : F → F → F
  /-- To the next integer, a half to the even one. -/
  round : F → ℤ
  /-- To six decimals, as the table keeps it. -/
  decimal : F → F

-- The literals of a type that has its own are left to it.
attribute [instance (10)] Floating.toOfScientific

variable {F : Type} [Floating F]

def fmax (x y : F) : F := if Floating.le y x then x else y

def fmin (x y : F) : F := if Floating.le x y then x else y

/-! ## Weights -/

def DEFAULT_WEIGHTS (n : ℕ) : F :=
  match n with
  | 0 => 0.40255
  | 1 => 1.18385
  | 2 => 3.173
  | 3 => 15.69105
  | 4 => 7.1949
  | 5 => 0.5345
  | 6 => 1.4604
  | 7 => 0.0046
  | 8 => 1.54575
  | 9 => 0.1192
  | 10 => 1.01925
  | 11 => 1.9395
  | 12 => 0.11
  | 13 => 0.29605
  | 14 => 2.2698
  | 15 => 0.2315
  | 16 => 2.9898
  | 17 => 0.51655
  | _ => 0.6621

def DECAY : F := -0.5

def FACTOR : F := Floating.ofInt 19 / Floating.ofInt 81

def MIN_DIFFICULTY : F := 1.0

def MAX_DIFFICULTY : F := 10.0

def MIN_STABILITY : F := 0.01

def MAX_INTERVAL_DAYS : ℤ := 365

inductive Grade where
  | again
  | hard
  | good
  | easy
  deriving DecidableEq, Repr

def Grade.value : Grade → ℤ
  | again => 1
  | hard => 2
  | good => 3
  | easy => 4

/-! ## Cards -/

structure CardState (F : Type) where
  stability : F
  difficulty : F
  dueAt : Instant
  lastReviewedAt : Option Instant
  reps : ℕ
  lapses : ℕ

def CardState.isNew (state : CardState F) : Bool := state.lastReviewedAt.isNone

/-- Days between two instants, as `total_seconds() / 86400.0`. -/
def elapsedDays (from_ until_ : Instant) : F :=
  Floating.ofInt (until_ - from_) / 1000000.0 / 86400.0

def retrievability (state : CardState F) (now : Instant) : F :=
  match state.lastReviewedAt with
  | none => 1.0
  | some last =>
    let elapsed := fmax (elapsedDays last now) 0.0
    let stability := fmax state.stability MIN_STABILITY
    Floating.pow (Floating.ofInt 1 + FACTOR * elapsed / stability) DECAY

def clamp (value low high : F) : F := fmin (fmax value low) high

def initialStability (grade : Grade) : F :=
  fmax (DEFAULT_WEIGHTS (grade.value.toNat - 1)) MIN_STABILITY

def initialDifficulty (grade : Grade) : F :=
  clamp (DEFAULT_WEIGHTS 4 - Floating.exp (DEFAULT_WEIGHTS 5 * Floating.ofInt (grade.value - 1)) +
    Floating.ofInt 1) MIN_DIFFICULTY MAX_DIFFICULTY

def nextDifficulty (difficulty : F) (grade : Grade) : F :=
  let delta := -DEFAULT_WEIGHTS 6 * Floating.ofInt (grade.value - Grade.good.value)
  let damped := difficulty + delta * (Floating.ofInt 10 - difficulty) / Floating.ofInt 9
  let reverted := DEFAULT_WEIGHTS 7 * initialDifficulty .easy +
    (Floating.ofInt 1 - DEFAULT_WEIGHTS 7) * damped
  clamp reverted MIN_DIFFICULTY MAX_DIFFICULTY

def stabilityAfterRecall (stability difficulty retention : F) (grade : Grade) : F :=
  let hardPenalty := if grade = .hard then DEFAULT_WEIGHTS 15 else 1.0
  let easyBonus := if grade = .easy then DEFAULT_WEIGHTS 16 else 1.0
  let growth := Floating.exp (DEFAULT_WEIGHTS 8) * (Floating.ofInt 11 - difficulty) *
    Floating.pow stability (-DEFAULT_WEIGHTS 9) *
    (Floating.exp (DEFAULT_WEIGHTS 10 * (Floating.ofInt 1 - retention)) - Floating.ofInt 1) *
    hardPenalty * easyBonus
  fmax (stability * (Floating.ofInt 1 + growth)) MIN_STABILITY

def stabilityAfterLapse (stability difficulty retention : F) : F :=
  let lapsed := DEFAULT_WEIGHTS 11 * Floating.pow difficulty (-DEFAULT_WEIGHTS 12) *
    (Floating.pow (stability + Floating.ofInt 1) (DEFAULT_WEIGHTS 13) - Floating.ofInt 1) *
    Floating.exp (DEFAULT_WEIGHTS 14 * (Floating.ofInt 1 - retention))
  fmax (fmin lapsed stability) MIN_STABILITY

def stabilitySameDay (stability : F) (grade : Grade) : F :=
  fmax (stability * Floating.exp (DEFAULT_WEIGHTS 17 *
    (Floating.ofInt (grade.value - 3) + DEFAULT_WEIGHTS 18))) MIN_STABILITY

def intervalDays (stability requestedRetention : F) : ℤ :=
  let raw := stability / FACTOR *
    (Floating.pow requestedRetention (Floating.ofInt 1 / DECAY) - Floating.ofInt 1)
  min (max (Floating.round raw) 1) MAX_INTERVAL_DAYS

def newCard (now : Instant) : CardState F where
  stability := MIN_STABILITY
  difficulty := initialDifficulty .good
  dueAt := now
  lastReviewedAt := none
  reps := 0
  lapses := 0

/-- The stability and the difficulty after an answer. -/
def nextMemory (state : CardState F) (grade : Grade) (now : Instant) : F × F :=
  match state.lastReviewedAt with
  | none => (initialStability grade, initialDifficulty grade)
  | some last =>
    let retention := retrievability state now
    let difficulty := nextDifficulty state.difficulty grade
    let stability :=
      if now - last < MICROSECONDS_PER_DAY then stabilitySameDay state.stability grade
      else if grade = .again then stabilityAfterLapse state.stability difficulty retention
      else stabilityAfterRecall state.stability difficulty retention grade
    (stability, difficulty)

def review (state : CardState F) (grade : Grade) (now : Instant) : CardState F where
  stability := (nextMemory state grade now).1
  difficulty := (nextMemory state grade now).2
  dueAt :=
    if grade = .again then now
    else now + intervalDays (nextMemory state grade now).1 0.9 * MICROSECONDS_PER_DAY
  lastReviewedAt := some now
  reps := state.reps + 1
  lapses := state.lapses + if grade = .again ∧ ¬ state.isNew then 1 else 0

/-- The same for any requested retention; 0.9 is its default. -/
def reviewWith (requestedRetention : F) (state : CardState F) (grade : Grade) (now : Instant) :
    CardState F where
  stability := (nextMemory state grade now).1
  difficulty := (nextMemory state grade now).2
  dueAt :=
    if grade = .again then now
    else now + intervalDays (nextMemory state grade now).1 requestedRetention * MICROSECONDS_PER_DAY
  lastReviewedAt := some now
  reps := state.reps + 1
  lapses := state.lapses + if grade = .again ∧ ¬ state.isNew then 1 else 0

theorem reviewWith_default (state : CardState F) (grade : Grade) (now : Instant) :
    reviewWith 0.9 state grade now = review state grade now := rfl

def gradeForAnswer (correct : Bool) : Grade := if correct then .good else .again

end Stoa.Practice
