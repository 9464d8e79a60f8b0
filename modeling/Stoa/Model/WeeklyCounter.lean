import Stoa.Model.Values
import Stoa.Store.Versioned
import Mathlib.Data.List.Basic
import Mathlib.Logic.Function.Basic

/-! # Weekly counters

One row of counts per scope and Zurich week, written under a version. -/

namespace Stoa

/-- One kind of weekly counter; `F` are its count fields. -/
structure CounterKind (F : Type) where
  entityType : String
  schemaVersion : String
  countFields : List F
  fieldName : F → String

inductive TokenField where
  | finalizedInputTokens
  | finalizedOutputTokens
  | reservedInputTokens
  | reservedOutputTokens
  | providerCostInputTokens
  | providerCostOutputTokens
  deriving DecidableEq, Repr

/-- The weekly AI token allowance, one row per student. -/
def TOKENS : CounterKind TokenField where
  entityType := "allowance_counter"
  schemaVersion := "allowance_counter.v1"
  countFields := [.finalizedInputTokens, .finalizedOutputTokens, .reservedInputTokens,
    .reservedOutputTokens, .providerCostInputTokens, .providerCostOutputTokens]
  fieldName
    | .finalizedInputTokens => "finalized_input_tokens"
    | .finalizedOutputTokens => "finalized_output_tokens"
    | .reservedInputTokens => "reserved_input_tokens"
    | .reservedOutputTokens => "reserved_output_tokens"
    | .providerCostInputTokens => "provider_cost_input_tokens"
    | .providerCostOutputTokens => "provider_cost_output_tokens"

theorem TOKENS_countFields (f : TokenField) : f ∈ TOKENS.countFields := by
  cases f <;> decide

inductive CaseField where
  | admittedCases
  deriving DecidableEq, Repr

/-- The weekly count of teacher-help cases, one row per support scope. -/
def CASES : CounterKind CaseField where
  entityType := "teacher_support_counter"
  schemaVersion := "teacher_support_counter.v1"
  countFields := [.admittedCases]
  fieldName | .admittedCases => "admitted_cases"

/-- A stored counter; `X` are the attributes that belong to the caller. -/
structure CounterRow (F X : Type) where
  entityType : String
  schemaVersion : String
  scopeId : String
  weekIdentity : String
  windowStart : Instant
  windowEnd : Instant
  counts : F → ℤ
  stateVersion : ℤ
  /-- Rows written before it was kept on every write do not have it. -/
  createdAt : Option Instant
  updatedAt : Instant
  fields : Option X

variable {F X : Type}

/-! ## Reading -/

/-- The row is this counter's: its kind, its scope, its week and its window. -/
def CounterRow.Shape (kind : CounterKind F) (scopeId : String) (week : WeekFields)
    (item : CounterRow F X) : Prop :=
  item.entityType = kind.entityType ∧ item.schemaVersion = kind.schemaVersion ∧
    item.scopeId = scopeId ∧ item.weekIdentity = week.identity ∧
    item.windowStart = week.windowStart ∧ item.windowEnd = week.windowEnd

instance (kind : CounterKind F) (scopeId : String) (week : WeekFields)
    (item : CounterRow F X) : Decidable (item.Shape kind scopeId week) :=
  inferInstanceAs (Decidable (_ ∧ _))

/-- A counter row as read back: its counts and version are in range. -/
structure Counter (kind : CounterKind F) (scopeId : String) (week : WeekFields)
    (X : Type) where
  item : CounterRow F X
  shape : item.Shape kind scopeId week
  counts : ∀ f ∈ kind.countFields, IsCount (item.counts f)
  version : IsPositive item.stateVersion

variable (kind : CounterKind F) (scopeId : String) (week : WeekFields)

def validate (item : CounterRow F X) : Except String (Counter kind scopeId week X) :=
  if shape : item.Shape kind scopeId week then
    if counts : ∀ f ∈ kind.countFields, IsCount (item.counts f) then
      if version : IsPositive item.stateVersion then .ok ⟨item, shape, counts, version⟩
      else .error "malformed state_version"
    else
      let field := kind.countFields.find? fun f => ¬ IsCount (item.counts f)
      .error ("malformed " ++ field.elim "" kind.fieldName)
  else .error "malformed counter"

variable {kind scopeId week}

theorem validate_eq_ok {item : CounterRow F X} {c : Counter kind scopeId week X} :
    validate kind scopeId week item = .ok c ↔ c.item = item := by
  constructor
  · intro h
    unfold validate at h
    split at h <;> [split at h <;> [split at h; skip]; skip] <;> cases h
    rfl
  · rintro rfl
    rw [validate, dif_pos c.shape, dif_pos c.counts, dif_pos c.version]

variable (kind scopeId week)

/-- What `read` makes of the table's answer. -/
def readBack : Option (Option (CounterRow F X)) →
    Except String (Option (Counter kind scopeId week X))
  | none => .error "counter persistence is unavailable"
  | some none => .ok none
  | some (some item) => (validate kind scopeId week item).map some

variable {kind scopeId week}

theorem readBack_eq_ok {answer : Option (Option (CounterRow F X))}
    {c : Option (Counter kind scopeId week X)}
    (h : readBack kind scopeId week answer = .ok c) : answer = some (c.map (·.item)) := by
  rcases answer with _ | _ | item
  · cases h
  · cases h
    rfl
  · simp only [readBack] at h
    cases hv : validate kind scopeId week item with
    | error e =>
        rw [hv] at h
        cases h
    | ok d =>
        rw [hv] at h
        cases h
        simp [validate_eq_ok.mp hv]

/-! ## Writing -/

/-- A count that is not stored yet is 0. -/
def previousCount (previous : Option (Counter kind scopeId week X)) (f : F) : ℤ :=
  previous.elim 0 fun c => c.item.counts f

def previousVersion (previous : Option (Counter kind scopeId week X)) : ℤ :=
  previous.elim 0 fun c => c.item.stateVersion

/-- The counter's next version, and the condition under which it is stored. -/
structure CounterWrite (F X : Type) where
  item : CounterRow F X
  condition : Option (CounterRow F X) → Bool

def newCounter (kind : CounterKind F) (scopeId : String) (week : WeekFields) (now : Instant) :
    CounterRow F X where
  entityType := kind.entityType
  schemaVersion := kind.schemaVersion
  scopeId := scopeId
  weekIdentity := week.identity
  windowStart := week.windowStart
  windowEnd := week.windowEnd
  counts := fun _ => 0
  stateVersion := 0
  createdAt := some now
  updatedAt := now
  fields := none

variable [DecidableEq F]

def setCounts (base : F → ℤ) (counts : List (F × ℤ)) : F → ℤ :=
  counts.foldl (fun acc c => Function.update acc c.1 c.2) base

/-- The operation that writes the counter's next version. `counts` are the new
values of some counts; the others stay, or are 0 in a new row. -/
def write (kind : CounterKind F) (scopeId : String) (week : WeekFields)
    (previous : Option (Counter kind scopeId week X)) (counts : List (F × ℤ))
    (fields : Option X) (now : Instant) : Except Failure (CounterWrite F X) :=
  match counts.find? fun c => ¬ IsCount c.2 with
  | some c => .error (.valueError (kind.fieldName c.1 ++ " is out of range"))
  | none =>
    let base := previous.elim (newCounter kind scopeId week now) fun c => c.item
    .ok {
      item := { base with
        counts := setCounts base.counts counts
        fields := fields.or base.fields
        stateVersion := previousVersion previous + 1
        updatedAt := now }
      condition := match previous with
        | none => Option.isNone
        | some c => Option.any fun stored => stored.stateVersion = c.item.stateVersion }

/-- What a successful `write` gives back. -/
structure Written (previous : Option (Counter kind scopeId week X)) (counts : List (F × ℤ))
    (fields : Option X) (w : CounterWrite F X) : Prop where
  given : ∀ c ∈ counts, IsCount c.2
  counts : w.item.counts = setCounts (previousCount previous) counts
  version : w.item.stateVersion = previousVersion previous + 1
  fields : w.item.fields = fields.or (previous.bind fun c => c.item.fields)
  shape : w.item.Shape kind scopeId week

theorem write_written {previous : Option (Counter kind scopeId week X)}
    {counts : List (F × ℤ)} {fields : Option X} {now : Instant} {w : CounterWrite F X}
    (h : write kind scopeId week previous counts fields now = .ok w) :
    Written previous counts fields w := by
  unfold write at h
  split at h
  · cases h
  · rename_i hfind
    cases h
    refine ⟨fun c hc => ?_, ?_, rfl, ?_, ?_⟩
    · simpa using List.find?_eq_none.mp hfind c hc
    · cases previous <;> rfl
    · cases previous <;> rfl
    · cases previous with
      | none => exact ⟨rfl, rfl, rfl, rfl, rfl, rfl⟩
      | some c => exact c.shape

/-- A write of counts that are in range is never refused. -/
theorem write_eq_ok (previous : Option (Counter kind scopeId week X)) {counts : List (F × ℤ)}
    (h : ∀ c ∈ counts, IsCount c.2) (fields : Option X) (now : Instant) :
    ∃ w, write kind scopeId week previous counts fields now = .ok w := by
  unfold write
  have hfind : counts.find? (fun c => ¬ IsCount c.2) = none :=
    List.find?_eq_none.mpr fun c hc => by simpa using h c hc
  rw [hfind]
  exact ⟨_, rfl⟩

/-- Stored only over the very row that was read. -/
theorem write_condition {previous : Option (Counter kind scopeId week X)}
    {counts : List (F × ℤ)} {fields : Option X} {now : Instant} {w : CounterWrite F X}
    (stored : Option (CounterRow F X))
    (h : write kind scopeId week previous counts fields now = .ok w)
    (hnewer : RowStore.Newer (fun r : CounterRow F X => r.stateVersion)
      (previous.map (·.item)) stored)
    (hc : w.condition stored = true) : stored = previous.map (·.item) := by
  unfold write at h
  split at h
  · cases h
  · cases h
    cases previous with
    | none => simpa using hc
    | some c => exact hnewer.eq_of_condition hc

theorem setCounts_mem_or (base : F → ℤ) (counts : List (F × ℤ)) (f : F) :
    (∃ c ∈ counts, setCounts base counts f = c.2) ∨ setCounts base counts f = base f := by
  induction counts generalizing base with
  | nil => exact .inr rfl
  | cons c counts ih =>
      rcases ih (Function.update base c.1 c.2) with ⟨d, hd, heq⟩ | heq
      · exact .inl ⟨d, List.mem_cons_of_mem _ hd, heq⟩
      · by_cases hf : f = c.1
        · subst hf
          exact .inl ⟨c, List.mem_cons_self .., by
            rw [setCounts, List.foldl_cons]
            exact heq.trans (Function.update_self ..)⟩
        · exact .inr (heq.trans (Function.update_of_ne hf ..))

/-- Every count that is written is in range. -/
theorem Written.counts_valid {previous : Option (Counter kind scopeId week X)}
    {counts : List (F × ℤ)} {fields : Option X} {w : CounterWrite F X}
    (h : Written previous counts fields w) {f : F} (hf : f ∈ kind.countFields) :
    IsCount (w.item.counts f) := by
  rw [h.counts]
  rcases setCounts_mem_or (previousCount previous) counts f with
    ⟨c, hc, heq⟩ | heq
  · rw [heq]
    exact h.given c hc
  · rw [heq]
    cases previous with
    | none => exact (by decide : IsCount 0)
    | some c => exact c.counts f hf

end Stoa
