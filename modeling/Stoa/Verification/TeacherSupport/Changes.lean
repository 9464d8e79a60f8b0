import Stoa.Verification.TeacherSupport.Cases

/-! # What a commit does to receipts and counters

Every commit admits one case, gives one back, or leaves them alone; the
invariant and the rely are derived from that. -/

namespace Stoa.TeacherSupport

open RowStore

variable {env : Env}

/-- A receipt and the counter it is counted on are written together. -/
def writeCase (env : Env) (t : Table Key Row) (receipt : ReceiptRow)
    (counter : CounterRow CaseField CaseFields) : Table Key Row :=
  (t.set (.receipt (env.caseIdentity receipt.caseKind receipt.supportCaseId)) (some receipt)).set
    (.counter receipt.supportScopeId receipt.weekIdentity) (some counter)

def ReceiptRow.refund (receipt : ReceiptRow) (observed : Instant) (reason : String) : ReceiptRow :=
  { receipt with
    refundedAt := some observed
    refundReason := some reason
    stateVersion := receipt.stateVersion + 1 }

inductive Change (env : Env) (t t' : Table Key Row) : Prop where
  | nothing (same : t'.AgreesOn Key.IsCase t)
  /-- A case is spent under the limit that is in force in `t`. -/
  | admitted (receipt : ReceiptRow) (counter : CounterRow CaseField CaseFields)
      (absent : t.row (.receipt (env.caseIdentity receipt.caseKind receipt.supportCaseId)) = none)
      (unrefunded : receipt.refundedAt = none)
      (counted : counter.counts .admittedCases =
        admittedCases t receipt.supportScopeId receipt.weekIdentity + 1)
      (newer : Newer (fun row : CounterRow CaseField CaseFields => row.stateVersion)
        (t.row (.counter receipt.supportScopeId receipt.weekIdentity)) (some counter))
      (capped : counter.counts .admittedCases ≤ receipt.limit)
      (inForce : InForce env t receipt.beneficiaryId receipt.supportScopeId receipt.limit)
      (result : t'.AgreesOn Key.IsCase (writeCase env t receipt counter))
  /-- A case is given back to the scope and week of its receipt. -/
  | refunded (receipt : ReceiptRow) (observed : Instant) (reason : String)
      (counter : CounterRow CaseField CaseFields)
      (stored : t.row (.receipt (env.caseIdentity receipt.caseKind receipt.supportCaseId)) =
        some receipt)
      (unrefunded : receipt.refundedAt = none)
      (counted : counter.counts .admittedCases =
        admittedCases t receipt.supportScopeId receipt.weekIdentity - 1)
      (newer : Newer (fun row : CounterRow CaseField CaseFields => row.stateVersion)
        (t.row (.counter receipt.supportScopeId receipt.weekIdentity)) (some counter))
      (result : t'.AgreesOn Key.IsCase (writeCase env t (receipt.refund observed reason) counter))

/-! ## The invariant -/

structure Cases (env : Env) (t : Table Key Row) : Prop where
  /-- A receipt is stored where its case belongs. -/
  identity : ∀ x row, t.row (.receipt x) = some row →
    env.caseIdentity row.caseKind row.supportCaseId = x
  counted : ∀ scope week, admittedCases t scope week = t.total (openCase scope week)

/-- Only the rows that count matter. -/
theorem Cases.agree {t t' : Table Key Row} (h : Cases env t) (ha : t'.AgreesOn Key.IsCase t) :
    Cases env t' where
  identity := fun x row hrow => h.identity x row ((ha (.receipt x) trivial).symm.trans hrow)
  counted := fun scope week => by
    rw [admittedCases_congr ha, ha.total openCase_eq_zero, h.counted]

theorem Fresh.cases {t : Table Key Row} (h : Fresh t) : Cases env t where
  identity := fun x row hrow => by simp [h (.receipt x) trivial] at hrow
  counted := by
    intro scope week
    rw [admittedCases, h (.counter scope week) trivial, Option.elim_none]
    refine (Table.total_eq_zero t _ fun k item hk => ?_).symm
    cases k with
    | receipt x => simp [h (.receipt x) trivial] at hk
    | _ => rfl

/-- Writing a receipt changes its own scope and week by what it counts more. -/
theorem Cases.write {t : Table Key Row} (h : Cases env t) (receipt : ReceiptRow)
    {counter : CounterRow CaseField CaseFields}
    (hcount : ∀ scope week, (if scope = receipt.supportScopeId ∧ week = receipt.weekIdentity then
        counter.counts .admittedCases else admittedCases t scope week) +
      (t.row (.receipt (env.caseIdentity receipt.caseKind receipt.supportCaseId))).elim 0
        (openCase scope week (.receipt (env.caseIdentity receipt.caseKind receipt.supportCaseId))) =
      admittedCases t scope week +
        openCase scope week (.receipt (env.caseIdentity receipt.caseKind receipt.supportCaseId))
          receipt) :
    Cases env (writeCase env t receipt counter) where
  identity := by
    intro x row hrow
    rw [writeCase, Table.row_set_of_ne _ _ (by simp)] at hrow
    by_cases hx : Key.receipt x =
        .receipt (env.caseIdentity receipt.caseKind receipt.supportCaseId)
    · obtain rfl := Key.receipt.inj hx
      rw [Table.row_set_self] at hrow
      cases hrow
      rfl
    · rw [Table.row_set_of_ne _ _ hx] at hrow
      exact h.identity x row hrow
  counted := by
    intro scope week
    have htotal := Table.total_set t (openCase scope week)
      (.receipt (env.caseIdentity receipt.caseKind receipt.supportCaseId)) (some receipt)
    have hc := hcount scope week
    rw [writeCase, admittedCases_set_counter, admittedCases_set_receipt, total_set_counter]
    rw [Option.elim_some] at htotal
    have hold := h.counted scope week
    omega

theorem Change.cases {t t' : Table Key Row} (h : Cases env t) (hc : Change env t t') :
    Cases env t' := by
  cases hc with
  | nothing same => exact h.agree same
  | admitted receipt counter absent unrefunded counted newer capped inForce result =>
      refine (h.write receipt fun scope week => ?_).agree result
      rw [absent, Option.elim_none, counted, openCase]
      simp only [unrefunded, Option.isNone_none, eq_comm (a := scope), eq_comm (a := week)]
      split
      · rename_i hkey
        obtain ⟨rfl, rfl⟩ := hkey
        simp
      · rename_i hkey
        rw [if_neg fun hk => hkey ⟨hk.1, hk.2.1⟩]
  | refunded receipt observed reason counter stored unrefunded counted newer result =>
      refine (h.write (receipt.refund observed reason) fun scope week => ?_).agree result
      have hstored : t.row (.receipt (env.caseIdentity (receipt.refund observed reason).caseKind
          (receipt.refund observed reason).supportCaseId)) = some receipt := stored
      rw [hstored, Option.elim_some, counted, openCase, openCase]
      simp only [ReceiptRow.refund, unrefunded, Option.isNone_none, Option.isNone_some,
        eq_comm (a := scope), eq_comm (a := week)]
      split
      · rename_i hkey
        obtain ⟨rfl, rfl⟩ := hkey
        simp
      · rename_i hkey
        rw [if_neg fun hk => hkey ⟨hk.1, hk.2.1⟩]
        simp

/-! ## The rely -/

/-- Counters and receipts only get newer, and a refunded receipt stays as it is. -/
structure Keeps (t t' : Table Key Row) : Prop where
  counter : ∀ scope week,
    Newer (fun row : CounterRow CaseField CaseFields => row.stateVersion)
      (t.row (.counter scope week)) (t'.row (.counter scope week))
  receipt : ∀ x, Newer (fun row : ReceiptRow => row.stateVersion)
    (t.row (.receipt x)) (t'.row (.receipt x))
  refunded : ∀ x row, t.row (.receipt x) = some row → row.refundedAt ≠ none →
    t'.row (.receipt x) = some row

theorem Keeps.refl (t : Table Key Row) : Keeps t t where
  counter := fun _ _ => Newer.refl _ _
  receipt := fun _ => Newer.refl _ _
  refunded := fun _ _ h _ => h

theorem Keeps.trans {s t u : Table Key Row} (hst : Keeps s t) (htu : Keeps t u) : Keeps s u where
  counter := fun scope week => (hst.counter scope week).trans (htu.counter scope week)
  receipt := fun x => (hst.receipt x).trans (htu.receipt x)
  refunded := fun x row h hr => htu.refunded x row (hst.refunded x row h hr) hr

theorem Keeps.of_agree {t t' : Table Key Row} (h : t'.AgreesOn Key.IsCase t) : Keeps t t' where
  counter := fun scope week => by
    rw [h (.counter scope week) trivial]
    exact Newer.refl _ _
  receipt := fun x => by
    rw [h (.receipt x) trivial]
    exact Newer.refl _ _
  refunded := fun x row hrow _ => by rw [h (.receipt x) trivial, hrow]

theorem Keeps.write (env : Env) {t : Table Key Row} (receipt : ReceiptRow)
    {counter : CounterRow CaseField CaseFields}
    (hcounter : Newer (fun row : CounterRow CaseField CaseFields => row.stateVersion)
      (t.row (.counter receipt.supportScopeId receipt.weekIdentity)) (some counter))
    (hreceipt : ∀ row, t.row (.receipt (env.caseIdentity receipt.caseKind receipt.supportCaseId)) =
      some row → row.refundedAt = none ∧ row.stateVersion < receipt.stateVersion) :
    Keeps t (writeCase env t receipt counter) where
  counter := by
    intro scope week
    by_cases hk : Key.counter scope week = .counter receipt.supportScopeId receipt.weekIdentity
    · obtain ⟨rfl, rfl⟩ := Key.counter.inj hk
      rw [writeCase, Table.row_set_self]
      exact hcounter
    · rw [writeCase, Table.row_set_of_ne _ _ hk, Table.row_set_of_ne _ _ (by simp)]
      exact Newer.refl _ _
  receipt := by
    intro x
    rw [writeCase, Table.row_set_of_ne _ _ (by simp)]
    by_cases hx : Key.receipt x =
        .receipt (env.caseIdentity receipt.caseKind receipt.supportCaseId)
    · obtain rfl := Key.receipt.inj hx
      rw [Table.row_set_self]
      cases hrow : t.row (.receipt (env.caseIdentity receipt.caseKind receipt.supportCaseId)) with
      | none => trivial
      | some row => exact .inr (hreceipt row hrow).2
    · rw [Table.row_set_of_ne _ _ hx]
      exact Newer.refl _ _
  refunded := by
    intro x row hrow hr
    rw [writeCase, Table.row_set_of_ne _ _ (by simp)]
    by_cases hx : Key.receipt x =
        .receipt (env.caseIdentity receipt.caseKind receipt.supportCaseId)
    · obtain rfl := Key.receipt.inj hx
      exact (hr (hreceipt row hrow).1).elim
    · rw [Table.row_set_of_ne _ _ hx]
      exact hrow

theorem Change.keeps {t t' : Table Key Row} (h : Change env t t') : Keeps t t' := by
  cases h with
  | nothing same => exact .of_agree same
  | admitted receipt counter absent unrefunded counted newer capped inForce result =>
      exact (Keeps.write env receipt newer fun row hrow => by simp [absent] at hrow).trans (.of_agree result)
  | refunded receipt observed reason counter stored unrefunded counted newer result =>
      refine Keeps.trans (Keeps.write env (receipt.refund observed reason) newer
        fun row hrow => ?_) (.of_agree result)
      cases stored.symm.trans hrow
      exact ⟨unrefunded, Int.lt_succ _⟩

end Stoa.TeacherSupport
