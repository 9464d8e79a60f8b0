import Mathlib.Data.Int.Order.Basic
import Mathlib.Algebra.Group.Int.Defs

/-! # Values shared by the allowance and billing rows

Timezone-aware timestamps are instants, in microseconds since the epoch; the
stored text of one is its UTC form and reads back as the same instant. -/

namespace Stoa

/-- What a call raises instead of returning. -/
inductive Failure where
  | valueError (message : String)
  | validationError (field : String)
  | dependencyFailure (message : String)
  | paidGrantConflict (message : String)
  /-- The table's own exception, passed on by a caller that does not catch it. -/
  | tableError
  deriving DecidableEq, Repr

/-- A computation that succeeds succeeds in both its parts. -/
theorem bind_eq_ok {ε α β : Type} {x : Except ε α} {f : α → Except ε β} {b : β} :
    (x >>= f) = .ok b ↔ ∃ a, x = .ok a ∧ f a = .ok b := by
  cases x <;> simp [bind, Except.bind]

/-- A check that returns what it is given accepts a list with all its members. -/
theorem mapM_self {α ε : Type} {f : α → Except ε α} {l : List α} :
    l.mapM f = .ok l ↔ ∀ x ∈ l, f x = .ok x := by
  induction l with
  | nil => simp [pure, Except.pure]
  | cons a l ih =>
      rw [List.mapM_cons, List.forall_mem_cons, ← ih]
      cases f a with
      | error e => simp [bind, Except.bind]
      | ok b => cases l.mapM f <;> simp [bind, Except.bind, pure, Except.pure]

/-! ## Texts -/

/-- The characters that `str.strip` removes. -/
def isSpace (c : Char) : Bool :=
  let n := c.toNat
  (9 ≤ n && n ≤ 13) || (28 ≤ n && n ≤ 32) || n == 0x85 || n == 0xa0 || n == 0x1680 ||
    (0x2000 ≤ n && n ≤ 0x200a) || n == 0x2028 || n == 0x2029 || n == 0x202f ||
    n == 0x205f || n == 0x3000

def strip (s : List Char) : List Char :=
  ((s.dropWhile isSpace).reverse.dropWhile isSpace).reverse

/-- What `_required_text` accepts. -/
def IsRequiredText (maximum : ℕ) (value : String) : Prop :=
  value.toList = strip value.toList ∧ 1 ≤ value.length ∧ value.length ≤ maximum

instance (maximum : ℕ) (value : String) : Decidable (IsRequiredText maximum value) :=
  inferInstanceAs (Decidable (_ ∧ _ ∧ _))

/-- The stripped text of an argument that may not be blank. -/
def strippedText (value field : String) : Except Failure String :=
  let text := String.ofList (strip value.toList)
  if text = "" then .error (.valueError (field ++ " is required")) else .ok text

/-- A stripped text of 1 to 200 characters. -/
structure Text where
  val : String
  property : IsRequiredText 200 val
  deriving DecidableEq

def requiredText (value field : String) : Except Failure Text :=
  if h : IsRequiredText 200 value then .ok ⟨value, h⟩
  else .error (.valueError (field ++ " is invalid"))

theorem requiredText_eq_ok {value field : String} {text : Text} :
    requiredText value field = .ok text ↔ text.val = value := by
  constructor
  · intro h
    unfold requiredText at h
    split at h <;> cases h
    rfl
  · rintro rfl
    exact dif_pos text.property

def isLowerHex (c : Char) : Bool := "0123456789abcdef".toList.contains c

/-- What `_sha256` accepts once the text itself is accepted. -/
def IsSha256 (value : String) : Prop :=
  value.length = 64 ∧ value.toList.all isLowerHex = true

instance (value : String) : Decidable (IsSha256 value) :=
  inferInstanceAs (Decidable (_ ∧ _))

/-- A lowercase SHA-256 digest. -/
structure Sha256 where
  val : String
  property : IsSha256 val
  deriving DecidableEq

/-- A text of one digit is a digest where the digit is one of a digest. -/
theorem isSha256_replicate (c : Char) (h : isLowerHex c = true) : IsSha256 (String.ofList (List.replicate 64 c)) :=
  ⟨by simp, by simp [h]⟩

theorem isLowerHex_1 : isLowerHex '1' = true := rfl

theorem isLowerHex_2 : isLowerHex '2' = true := rfl

theorem isLowerHex_3 : isLowerHex '3' = true := rfl

theorem isLowerHex_4 : isLowerHex '4' = true := rfl

theorem isLowerHex_5 : isLowerHex '5' = true := rfl

theorem isLowerHex_6 : isLowerHex '6' = true := rfl

theorem isLowerHex_7 : isLowerHex '7' = true := rfl

theorem isLowerHex_8 : isLowerHex '8' = true := rfl

theorem isLowerHex_9 : isLowerHex '9' = true := rfl

theorem isLowerHex_a : isLowerHex 'a' = true := rfl

theorem isLowerHex_b : isLowerHex 'b' = true := rfl

theorem isLowerHex_c : isLowerHex 'c' = true := rfl

theorem isLowerHex_d : isLowerHex 'd' = true := rfl

theorem isLowerHex_e : isLowerHex 'e' = true := rfl

theorem isLowerHex_f : isLowerHex 'f' = true := rfl

/-- The digest made of one digit, for examples. -/
def Sha256.ofDigit (c : Char) (h : isLowerHex c = true) : Sha256 :=
  ⟨String.ofList (List.replicate 64 c), isSha256_replicate c h⟩

def sha256 (value field : String) : Except Failure Sha256 :=
  if IsRequiredText 64 value then
    if h : IsSha256 value then .ok ⟨value, h⟩
    else .error (.valueError (field ++ " must be a lowercase SHA-256 digest"))
  else .error (.valueError (field ++ " is invalid"))

/-! ## Counts -/

def MAX_EXACT_COUNT : ℤ := 2 ^ 63 - 1

def IsCount (n : ℤ) : Prop := 0 ≤ n ∧ n ≤ MAX_EXACT_COUNT

def IsPositive (n : ℤ) : Prop := 1 ≤ n ∧ n ≤ MAX_EXACT_COUNT

instance (n : ℤ) : Decidable (IsCount n) := inferInstanceAs (Decidable (_ ∧ _))

instance (n : ℤ) : Decidable (IsPositive n) := inferInstanceAs (Decidable (_ ∧ _))

theorem IsPositive.isCount {n : ℤ} (h : IsPositive n) : IsCount n :=
  ⟨le_trans (by decide) h.1, h.2⟩

/-- `ExactNonnegativeCount` -/
structure Count where
  val : ℤ
  property : IsCount val
  deriving DecidableEq

/-- `PositiveVersion` -/
structure Version where
  val : ℤ
  property : IsPositive val
  deriving DecidableEq

def exactCount (value : ℤ) (field : String) : Except Failure Count :=
  if h : IsCount value then .ok ⟨value, h⟩
  else .error (.valueError (field ++ " is invalid"))

def exactPositive (value : ℤ) (field : String) : Except Failure Version :=
  if h : IsPositive value then .ok ⟨value, h⟩
  else .error (.valueError (field ++ " is invalid"))

/-! ## Time -/

/-- Microseconds since 1970-01-01T00:00:00Z. -/
abbrev Instant := ℤ

def MICROSECONDS_PER_DAY : ℤ := 86400000000

/-- A time zone: the offset from UTC at an instant, and the instant of a local
wall-clock reading (`fold=0`), both in microseconds. -/
structure Zone where
  utcoffset : Instant → ℤ
  instant : ℤ → Instant

/-- The local wall-clock reading at an instant, as microseconds since the local
epoch. -/
def Zone.wall (zone : Zone) (t : Instant) : ℤ := t + zone.utcoffset t

/-- The proleptic Gregorian ordinal of a local reading's date. -/
def ordinal (wall : ℤ) : ℤ := wall / MICROSECONDS_PER_DAY + 719163

/-- Monday is 0. -/
def weekday (ordinal : ℤ) : ℤ := (ordinal + 6) % 7

/-- The ordinal of the day before 1 January of `year`. -/
def daysBeforeYear (year : ℤ) : ℤ :=
  let y := year - 1
  y * 365 + y / 4 - y / 100 + y / 400

/-- The year of an ordinal, as `datetime` computes it. -/
def yearOf (ordinal : ℤ) : ℤ :=
  let n := ordinal - 1
  let n400 := n / 146097
  let n := n % 146097
  let n100 := n / 36524
  let n := n % 36524
  let n4 := n / 1461
  let n := n % 1461
  let n1 := n / 365
  let year := n400 * 400 + 1 + n100 * 100 + n4 * 4 + n1
  if n1 = 4 ∨ n100 = 4 then year - 1 else year

/-- The ordinal of the Monday that starts the first ISO week of `year`. -/
def isoWeek1Monday (year : ℤ) : ℤ :=
  let firstday := daysBeforeYear year + 1
  let firstweekday := (firstday + 6) % 7
  let week1monday := firstday - firstweekday
  if firstweekday > 3 then week1monday + 7 else week1monday

/-- The ISO year and week of an ordinal. -/
def isocalendar (ordinal : ℤ) : ℤ × ℤ :=
  let year := yearOf ordinal
  let week := (ordinal - isoWeek1Monday year) / 7
  if week < 0 then
    (year - 1, (ordinal - isoWeek1Monday (year - 1)) / 7 + 1)
  else if week ≥ 52 ∧ ordinal ≥ isoWeek1Monday (year + 1) then (year + 1, 1)
  else (year, week + 1)

/-! ## Zurich weeks -/

/-- The attributes of a week, before they are validated. -/
structure WeekFields where
  isoYear : ℤ
  isoWeek : ℤ
  windowStart : Instant
  windowEnd : Instant
  deriving DecidableEq, Repr

def IsMondayMidnight (zone : Zone) (t : Instant) : Prop :=
  weekday (ordinal (zone.wall t)) = 0 ∧ zone.wall t % MICROSECONDS_PER_DAY = 0

/-- What `ZurichWeek` accepts. -/
structure WeekFields.IsZurichWeek (zone : Zone) (w : WeekFields) : Prop where
  iso_year : 1 ≤ w.isoYear ∧ w.isoYear ≤ 9999
  iso_week : 1 ≤ w.isoWeek ∧ w.isoWeek ≤ 53
  start_monday : IsMondayMidnight zone w.windowStart
  end_monday : IsMondayMidnight zone w.windowEnd
  seven_days : zone.wall w.windowEnd = zone.wall w.windowStart + 7 * MICROSECONDS_PER_DAY
  coordinates : (w.isoYear, w.isoWeek) = isocalendar (ordinal (zone.wall w.windowStart))

instance (zone : Zone) (w : WeekFields) : Decidable (w.IsZurichWeek zone) :=
  decidable_of_iff
    ((1 ≤ w.isoYear ∧ w.isoYear ≤ 9999) ∧ (1 ≤ w.isoWeek ∧ w.isoWeek ≤ 53) ∧
      (weekday (ordinal (zone.wall w.windowStart)) = 0 ∧
        zone.wall w.windowStart % MICROSECONDS_PER_DAY = 0) ∧
      (weekday (ordinal (zone.wall w.windowEnd)) = 0 ∧
        zone.wall w.windowEnd % MICROSECONDS_PER_DAY = 0) ∧
      zone.wall w.windowEnd = zone.wall w.windowStart + 7 * MICROSECONDS_PER_DAY ∧
      (w.isoYear, w.isoWeek) = isocalendar (ordinal (zone.wall w.windowStart)))
    ⟨fun ⟨h₁, h₂, h₃, h₄, h₅, h₆⟩ => ⟨h₁, h₂, h₃, h₄, h₅, h₆⟩,
      fun ⟨h₁, h₂, h₃, h₄, h₅, h₆⟩ => ⟨h₁, h₂, h₃, h₄, h₅, h₆⟩⟩

/-- A Zurich calendar week, Monday midnight to Monday midnight. -/
structure ZurichWeek (zone : Zone) extends WeekFields where
  valid : toWeekFields.IsZurichWeek zone

def ZurichWeek.modelValidate (zone : Zone) (w : WeekFields) : Except Failure (ZurichWeek zone) :=
  if h : w.IsZurichWeek zone then .ok ⟨w, h⟩ else .error (.validationError "week")

@[simp] theorem ZurichWeek.modelValidate_toWeekFields {zone : Zone} (w : ZurichWeek zone) :
    modelValidate zone w.toWeekFields = .ok w := by
  simp [modelValidate, w.valid]

def digit (n : ℤ) : Char := Char.ofNat (48 + (n % 10).toNat)

/-- The week as allowances name it: `2026-W13`. Years have at most four digits
and weeks at most two. -/
def WeekFields.identity (w : WeekFields) : String :=
  String.ofList [digit (w.isoYear / 1000), digit (w.isoYear / 100), digit (w.isoYear / 10),
    digit w.isoYear, '-', 'W', digit (w.isoWeek / 10), digit w.isoWeek]

/-- The Zurich calendar week `observedAt` falls in, from local Monday dates. -/
def zurichWeek (zone : Zone) (observedAt : Instant) : Except Failure (ZurichWeek zone) :=
  let date := ordinal (zone.wall observedAt)
  let monday := date - weekday date
  let midnight (day : ℤ) : Instant := zone.instant ((day - 719163) * MICROSECONDS_PER_DAY)
  ZurichWeek.modelValidate zone {
    isoYear := (isocalendar monday).1
    isoWeek := (isocalendar monday).2
    windowStart := midnight monday
    windowEnd := midnight (monday + 7) }

/-! ## Plans -/

inductive BillingPlanId where
  | freeTrial
  | student
  | teacherSupported
  | family
  deriving DecidableEq, Repr

inductive TeacherSupportScope where
  | none
  | perBeneficiary
  | sharedFamily
  deriving DecidableEq, Repr

def BillingPlanId.value : BillingPlanId → String
  | .freeTrial => "free_trial"
  | .student => "student"
  | .teacherSupported => "teacher_supported"
  | .family => "family"

def TeacherSupportScope.value : TeacherSupportScope → String
  | .none => "none"
  | .perBeneficiary => "per_beneficiary"
  | .sharedFamily => "shared_family"

/-- Input tokens, output tokens, teacher-support cases and their scope. -/
def LOCKED_BUDGETS : BillingPlanId → ℤ × ℤ × ℤ × TeacherSupportScope
  | .freeTrial => (50000, 10000, 0, .none)
  | .student => (500000, 100000, 0, .none)
  | .teacherSupported => (1000000, 200000, 2, .perBeneficiary)
  | .family => (1000000, 200000, 10, .sharedFamily)

/-- A plan's weekly budget; only the canonical one of each plan can be built. -/
structure PlanAllowanceBudget where
  planId : BillingPlanId
  inputTokens : Count
  outputTokens : Count
  teacherSupportCases : Count
  teacherSupportScope : TeacherSupportScope
  allowanceVersion : Version
  locked : (inputTokens.val, outputTokens.val, teacherSupportCases.val, teacherSupportScope) =
    LOCKED_BUDGETS planId

def planAllowanceBudget (plan : BillingPlanId) (allowanceVersion : ℤ) :
    Except Failure PlanAllowanceBudget := do
  let version ← exactPositive allowanceVersion "allowance_version"
  return {
    planId := plan
    inputTokens := ⟨(LOCKED_BUDGETS plan).1, by cases plan <;> decide⟩
    outputTokens := ⟨(LOCKED_BUDGETS plan).2.1, by cases plan <;> decide⟩
    teacherSupportCases := ⟨(LOCKED_BUDGETS plan).2.2.1, by cases plan <;> decide⟩
    teacherSupportScope := (LOCKED_BUDGETS plan).2.2.2
    allowanceVersion := version
    locked := rfl }

/-- Every plan's tokens are positive, as the token counter's own checks ask. -/
theorem PlanAllowanceBudget.tokens_positive (budget : PlanAllowanceBudget) :
    IsPositive budget.inputTokens.val ∧ IsPositive budget.outputTokens.val := by
  have h := budget.locked
  cases hp : budget.planId <;> rw [hp] at h <;>
    simp only [LOCKED_BUDGETS, Prod.mk.injEq] at h <;> rw [h.1, h.2.1] <;> decide

end Stoa
