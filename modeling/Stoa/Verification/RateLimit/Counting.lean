import Stoa.Model.RateLimit
import Stoa.Store.Versioned
import Mathlib.Algebra.Group.Int.Defs

/-! # Counters and receipts

A counter holds the number of receipts of its owner, kind and period. -/

namespace Stoa.RateLimit

open RowStore

/-! ## Commits -/

/-- An admission is committed: the receipt is new, and the counter, still below
the limit, goes up by one. -/
inductive Admission.Commits (v : Admission) (t : Table Key Row) : Table Key Row → Prop where
  | mk (generation : ℤ) (state : CounterState)
      (absent : t.row (.operation v.owner v.kind v.operationId) = none)
      (stored : counterState (some (t.row (.counter v.owner v.kind v.period))) = some state)
      (below : state.count < v.limit) :
      Commits v t ((t.set (.operation v.owner v.kind v.operationId)
        (some (v.operation generation state))).set (.counter v.owner v.kind v.period)
          (some (v.nextCounter generation state (t.row (.counter v.owner v.kind v.period)))))

theorem Admission.apply_operations (v : Admission) (generation : ℤ) (state : CounterState)
    (t : Table Key Row) :
    t.apply (v.operations generation state) =
      (t.set (.operation v.owner v.kind v.operationId) (some (v.operation generation state))).set
        (.counter v.owner v.kind v.period)
          (some (v.nextCounter generation state (t.row (.counter v.owner v.kind v.period)))) := by
  have hcounter : (t.set (.operation v.owner v.kind v.operationId)
      (some (v.operation generation state))).row (.counter v.owner v.kind v.period) =
        t.row (.counter v.owner v.kind v.period) := Table.row_set_of_ne _ _ (by simp)
  simp only [operations, Table.apply, Write.check, Write.putNew, Write.put, Write.update, id_eq,
    Table.set_row_self, hcounter]

/-- What a call may commit. -/
def Request.Commits (r : Request) (t t' : Table Key Row) : Prop :=
  ∃ v, r.checked = .ok v ∧ v.Commits t t'

/-! ## The invariant -/

/-- A receipt as it is stored under its key. Its expiry alone may be unreadable:
it is negative when the admission was the period's first and had such a clock. -/
structure OperationRow.Sound (owner : String) (kind : RateKind) (operationId : Sha256)
    (row : OperationRow) : Prop where
  entityType : row.entityType = "rate_admission_operation"
  schemaVersion : row.schemaVersion = OPERATION_SCHEMA_VERSION
  ownerId : row.ownerId = owner
  kind : row.kind = kind
  operationId : row.operationId = operationId
  status : row.status = "admitted"
  decision : row.decision = "admitted"
  counterValueAfter : 0 < row.counterValueAfter
  limit : 0 < row.limit
  expiresAt : row.expiresAt = epochSeconds row.createdAt + OPERATION_TTL_SECONDS
  receiptExpiresAt : 0 ≤ row.receiptExpiresAt ∨ row.receiptExpiresAt = row.expiresAt

/-- 1 for a receipt of the owner, kind and period. -/
def receiptOf (owner : String) (kind : RateKind) (period : String) : (k : Key) → Row k → ℤ
  | .operation o k _, row => if o = owner ∧ k = kind ∧ row.quotaPeriod = period then 1 else 0
  | .accountFence _, _ => 0
  | .counter _ _ _, _ => 0

/-- The count that is stored; a counter that is not there counts 0. -/
def counted (t : Table Key Row) (owner : String) (kind : RateKind) (period : String) : ℤ :=
  (t.row (.counter owner kind period)).elim 0 fun row => row.count.getD 0

structure Admissions (t : Table Key Row) : Prop where
  counters : ∀ o k p row, t.row (.counter o k p) = some row →
    ∃ n e, row.count = some n ∧ row.expiresAt = some e ∧ 0 < n
  operations : ∀ o k x row, t.row (.operation o k x) = some row → row.Sound o k x
  counted : ∀ o k p, counted t o k p = t.total (receiptOf o k p)

theorem Fresh.admissions {t : Table Key Row} (h : Fresh t) : Admissions t where
  counters := fun o k p row hrow => by simp [h (.counter o k p)] at hrow
  operations := fun o k x row hrow => by simp [h (.operation o k x)] at hrow
  counted := by
    intro o k p
    rw [RateLimit.counted, h (.counter o k p) (by simp), Option.elim_none]
    refine (Table.total_eq_zero t _ fun key row hrow => ?_).symm
    cases key with
    | accountFence user => rfl
    | counter o k p => rfl
    | operation o k x => simp [h (.operation o k x)] at hrow

theorem Admissions.drift {t t' : Table Key Row} (h : Admissions t) (hd : FenceDrift t t') :
    Admissions t' where
  counters := fun o k p row hrow => h.counters o k p row (hd (.counter o k p) (by simp) ▸ hrow)
  operations := fun o k x row hrow =>
    h.operations o k x row (hd (.operation o k x) (by simp) ▸ hrow)
  counted := by
    intro o k p
    rw [RateLimit.counted, hd (.counter o k p) (by simp)]
    refine (h.counted o k p).trans (Table.total_congr fun key => ?_)
    by_cases hk : ∃ user, key = .accountFence user
    · obtain ⟨user, rfl⟩ := hk
      cases t.row (.accountFence user) <;> cases t'.row (.accountFence user) <;> rfl
    · rw [hd key fun user he => hk ⟨user, he⟩]

/-! ## Counting -/

theorem counterState_eq_some {stored : Option CounterRow} {state : Admission.CounterState}
    (h : Admission.counterState (some stored) = some state) :
    (stored.bind fun row => row.count).getD 0 = state.count ∧ 0 ≤ state.count ∧
      state.countExists = (stored.bind fun row => row.count).isSome ∧ 0 ≤ state.expiresAt := by
  simp only [Admission.counterState, storedNonnegativeInt] at h
  split at h
  · rename_i c e hc he
    cases h
    split at hc <;> cases hc
    split at he <;> cases he
    exact ⟨rfl, ‹_›, rfl, ‹_›⟩
  · cases h

theorem counted_eq (t : Table Key Row) (owner : String) (kind : RateKind) (period : String) :
    counted t owner kind period =
      ((t.row (.counter owner kind period)).bind fun row => row.count).getD 0 := by
  unfold counted
  cases t.row (.counter owner kind period) <;> rfl

theorem counted_set_counter (t : Table Key Row) (o o' : String) (k k' : RateKind)
    (p p' : String) (row : CounterRow) :
    counted (t.set (.counter o k p) (some row)) o' k' p' =
      if o' = o ∧ k' = k ∧ p' = p then row.count.getD 0 else counted t o' k' p' := by
  unfold counted
  split
  · rename_i h
    obtain ⟨rfl, rfl, rfl⟩ := h
    rw [Table.row_set_self, Option.elim_some]
  · rename_i h
    have hk : Key.counter o' k' p' ≠ .counter o k p := by simpa using h
    rw [Table.row_set_of_ne t (some row) hk]

theorem total_set_counter (t : Table Key Row) (o o' : String) (k k' : RateKind)
    (p p' : String) (row : CounterRow) :
    (t.set (.counter o k p) (some row)).total (receiptOf o' k' p') =
      t.total (receiptOf o' k' p') := by
  have h := Table.total_set t (receiptOf o' k' p') (.counter o k p) (some row)
  have hold : (t.row (.counter o k p)).elim 0 (receiptOf o' k' p' (.counter o k p)) = 0 := by
    cases t.row (.counter o k p) <;> rfl
  rw [hold] at h
  simpa [receiptOf] using h

theorem total_set_operation (t : Table Key Row) (o o' : String) (k k' : RateKind)
    (x : Sha256) (p' : String) (row : OperationRow) (h : t.row (.operation o k x) = none) :
    (t.set (.operation o k x) (some row)).total (receiptOf o' k' p') =
      t.total (receiptOf o' k' p') + receiptOf o' k' p' (.operation o k x) row := by
  have htotal := Table.total_set t (receiptOf o' k' p') (.operation o k x) (some row)
  rw [h, Option.elim_some, Option.elim_none] at htotal
  omega

theorem Admission.operation_sound (v : Admission) (generation : ℤ) (state : CounterState)
    (h : 0 ≤ state.count) (he : 0 ≤ state.expiresAt) :
    (v.operation generation state).Sound v.owner v.kind v.operationId where
  entityType := rfl
  schemaVersion := rfl
  ownerId := rfl
  kind := rfl
  operationId := rfl
  status := rfl
  decision := rfl
  counterValueAfter := by
    simp only [operation]
    omega
  limit := v.limit_pos
  expiresAt := rfl
  receiptExpiresAt := by
    simp only [operation, receiptExpiry]
    split
    · exact .inl he
    · exact .inr rfl

theorem Admission.Commits.admissions {v : Admission} {t t' : Table Key Row} (h : Admissions t)
    (hc : v.Commits t t') : Admissions t' := by
  cases hc with
  | mk generation state absent stored below =>
    obtain ⟨hcount, hnonneg, -, hexpiry⟩ := counterState_eq_some stored
    refine ⟨?_, ?_, ?_⟩
    · intro o k p row hrow
      by_cases hk : Key.counter o k p = .counter v.owner v.kind v.period
      · obtain ⟨rfl, rfl, rfl⟩ := Key.counter.inj hk
        rw [Table.row_set_self] at hrow
        cases hrow
        exact ⟨_, _, rfl, rfl, by omega⟩
      · rw [Table.row_set_of_ne _ _ hk, Table.row_set_of_ne _ _ (by simp)] at hrow
        exact h.counters o k p row hrow
    · intro o k x row hrow
      rw [Table.row_set_of_ne _ _ (by simp)] at hrow
      by_cases hk : Key.operation o k x = .operation v.owner v.kind v.operationId
      · obtain ⟨rfl, rfl, rfl⟩ := Key.operation.inj hk
        rw [Table.row_set_self] at hrow
        cases hrow
        exact v.operation_sound generation state hnonneg hexpiry
      · rw [Table.row_set_of_ne _ _ hk] at hrow
        exact h.operations o k x row hrow
    · intro o k p
      rw [counted_set_counter, total_set_counter, total_set_operation _ _ _ _ _ _ _ _ absent,
        ← h.counted o k p]
      have hperiod : (v.operation generation state).quotaPeriod = v.period := rfl
      rw [receiptOf, hperiod]
      simp only [eq_comm (a := v.owner), eq_comm (a := v.kind), eq_comm (a := v.period)]
      split
      · rename_i hkey
        obtain ⟨rfl, rfl, rfl⟩ := hkey
        rw [counted_eq, hcount]
        rfl
      · have hsame : RateLimit.counted (t.set (.operation v.owner v.kind v.operationId)
            (some (v.operation generation state))) o k p = RateLimit.counted t o k p := by
          rw [RateLimit.counted, Table.row_set_of_ne _ _ (by simp), RateLimit.counted]
        omega

/-- After a commit the counter is at most the limit of the call. -/
theorem Admission.Commits.capped {v : Admission} {t t' : Table Key Row} (h : v.Commits t t') :
    counted t' v.owner v.kind v.period ≤ v.limit := by
  cases h with
  | mk generation state absent stored below =>
    rw [counted_set_counter, if_pos ⟨rfl, rfl, rfl⟩]
    exact below

/-- A commit stores the receipt of its operation, which was not there before. -/
theorem Admission.Commits.charges {v : Admission} {t t' : Table Key Row} (h : v.Commits t t') :
    t.row (.operation v.owner v.kind v.operationId) = none ∧
      t'.row (.operation v.owner v.kind v.operationId) ≠ none := by
  cases h with
  | mk generation state absent stored below =>
    refine ⟨absent, ?_⟩
    rw [Table.row_set_of_ne _ _ (by simp), Table.row_set_self]
    simp

end Stoa.RateLimit
