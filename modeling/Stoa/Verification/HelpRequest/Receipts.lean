import Stoa.Model.HelpRequest
import Stoa.Verification.TeacherSupport.Conservation

/-! # The receipt of a request

A request is written in the transaction that spends its case, and ends in the one
that gives the case back; these are all that the allowance submits for it. -/

namespace Stoa.TeacherSupport

open RowStore Relationships

variable {env : Env}

/-! ## Which receipt a commit writes -/

/-- The receipt is written, and was not there. -/
structure Spends (env : Env) (t t' : Table Key Row) (receipt : ReceiptRow) : Prop where
  absent : t.row (.receipt (env.caseIdentity receipt.caseKind receipt.supportCaseId)) = none
  unrefunded : receipt.refundedAt = none
  after : t'.row (.receipt (env.caseIdentity receipt.caseKind receipt.supportCaseId)) = some receipt
  others : ∀ x, x ≠ env.caseIdentity receipt.caseKind receipt.supportCaseId →
    t'.row (.receipt x) = t.row (.receipt x)

/-- The receipt is refunded, and was not before. -/
structure Returns (env : Env) (t t' : Table Key Row) (receipt refunded : ReceiptRow) : Prop where
  stored : t.row (.receipt (env.caseIdentity receipt.caseKind receipt.supportCaseId)) = some receipt
  unrefunded : receipt.refundedAt = none
  refund : ∃ observed reason, refunded = receipt.refund observed reason
  after : t'.row (.receipt (env.caseIdentity receipt.caseKind receipt.supportCaseId)) = some refunded
  others : ∀ x, x ≠ env.caseIdentity receipt.caseKind receipt.supportCaseId →
    t'.row (.receipt x) = t.row (.receipt x)

theorem row_writeCase_receipt {t : Table Key Row} {receipt : ReceiptRow}
    {counter : CounterRow CaseField CaseFields} (x : Sha256) :
    (writeCase env t receipt counter).row (.receipt x) =
      if x = env.caseIdentity receipt.caseKind receipt.supportCaseId then some receipt
      else t.row (.receipt x) := by
  rw [writeCase, Table.row_set_of_ne _ _ (by simp)]
  split
  · rename_i hx
    rw [hx, Table.row_set_self]
  · rename_i hx
    rw [Table.row_set_of_ne _ _ fun he => hx (Key.receipt.inj he)]

/-- A commit writes one receipt, or none. -/
theorem Change.receipts {t t' : Table Key Row} (h : Change env t t') :
    (∀ x, t'.row (.receipt x) = t.row (.receipt x)) ∨ (∃ receipt, Spends env t t' receipt) ∨
      ∃ receipt refunded, Returns env t t' receipt refunded := by
  cases h with
  | nothing same => exact .inl fun x => same (.receipt x) trivial
  | admitted receipt counter absent unrefunded counted newer capped inForce result =>
      have hrow : ∀ x, t'.row (.receipt x) = (writeCase env t receipt counter).row (.receipt x) :=
        fun x => result (.receipt x) trivial
      refine .inr (.inl ⟨receipt, absent, unrefunded, ?_, fun x hx => ?_⟩)
      · rw [hrow, row_writeCase_receipt, if_pos rfl]
      · rw [hrow, row_writeCase_receipt, if_neg hx]
  | refunded receipt observed reason counter stored unrefunded counted newer result =>
      have hrow : ∀ x, t'.row (.receipt x) =
          (writeCase env t (receipt.refund observed reason) counter).row (.receipt x) :=
        fun x => result (.receipt x) trivial
      refine .inr (.inr ⟨receipt, _, stored, unrefunded, ⟨observed, reason, rfl⟩, ?_, fun x hx => ?_⟩)
      · exact (hrow _).trans ((row_writeCase_receipt _).trans (if_pos rfl))
      · exact (hrow x).trans ((row_writeCase_receipt x).trans (if_neg hx))

/-- A receipt keeps its case. -/
theorem Change.receipt_kept {t t' : Table Key Row} (h : Change env t t') {x : Sha256} {receipt : ReceiptRow}
    (hrow : t.row (.receipt x) = some receipt) : ∃ receipt', t'.row (.receipt x) = some receipt' ∧
      receipt'.caseKind = receipt.caseKind ∧ receipt'.supportCaseId = receipt.supportCaseId ∧
        receipt'.beneficiaryId = receipt.beneficiaryId := by
  rcases h.receipts with hsame | ⟨spent, hspends⟩ | ⟨returned, refunded, hreturns⟩
  · exact ⟨receipt, (hsame x).trans hrow, rfl, rfl, rfl⟩
  · by_cases hx : x = env.caseIdentity spent.caseKind spent.supportCaseId
    · rw [hx, hspends.absent] at hrow
      cases hrow
    · exact ⟨receipt, (hspends.others x hx).trans hrow, rfl, rfl, rfl⟩
  · by_cases hx : x = env.caseIdentity returned.caseKind returned.supportCaseId
    · subst hx
      cases hreturns.stored.symm.trans hrow
      obtain ⟨observed, reason, rfl⟩ := hreturns.refund
      exact ⟨_, hreturns.after, rfl, rfl, rfl⟩
    · exact ⟨receipt, (hreturns.others x hx).trans hrow, rfl, rfl, rfl⟩

/-! ## What is submitted for a case -/

/-- The transactions of an admission. -/
def AdmitCase.Submitted (env : Env) (v : AdmitCase) (ops : List (Write Key Row)) : Prop :=
  ∃ week scope plan count, plan.receipt = v.receipt env week scope count ∧
    ops = v.operations env week scope plan

/-- The transactions of a refund. -/
inductive RefundCase.Submitted (env : Env) (v : RefundCase) : List (Write Key Row) → Prop where
  | absent : Submitted env v (v.seen env Option.isNone)
  | already : Submitted env v (v.seen env (Option.any fun row => row.refundedAt.isSome))
  | refunded (receipt : ReceiptRow) (plan : RefundCase.Plan) (kind : receipt.caseKind = v.kind)
      (case : receipt.supportCaseId = v.caseId) (beneficiary : receipt.beneficiaryId = v.beneficiary)
      (written : plan.receipt = v.refunded receipt) : Submitted env v (v.operations env receipt plan)

theorem submits_run {K L α β : Type} {V : K → Type} {W : L → Type} {P : Part K V L W}
    {T : List (Write L W) → Prop} {f : α → Program L W β} (l : Lookup K V α)
    (h : ∀ a, (f a).Submits T) : (l.run P f).Submits T := by
  induction l with
  | ret a => exact h a
  | read k next ih => exact fun row => ih _
  | query select next ih => exact fun rows => ih _

theorem AdmitCase.attempt_submits (v : AdmitCase) (week : WeekFields) :
    (v.attempt env week).Submits (v.Submitted env) := by
  have hin : ∀ scope : ResolvedScope, (v.attemptIn env week scope).Submits (v.Submitted env) := by
    intro scope row
    rcases row with _ | _ | existing
    · trivial
    · intro stored
      dsimp only
      split
      · trivial
      · rename_i counter hcounter
        split
        · trivial
        · rename_i plan hplan
          refine ⟨⟨week, scope, plan, _, (AdmitCase.planned hplan).receipt, rfl⟩, fun done => ?_⟩
          cases done with
          | true =>
              dsimp only
              split <;> trivial
          | false => trivial
    · trivial
  refine submits_run _ fun found => ?_
  rcases found with failure | _ | ⟨student, _ | scope⟩
  · cases failure <;> trivial
  · trivial
  · dsimp only
    split
    · trivial
    · split
      · trivial
      · intro raised
        cases raised with
        | none => trivial
        | some raised =>
            dsimp only
            cases assignedScope env v.beneficiary _ raised with
            | error failure => cases failure <;> trivial
            | ok scope =>
                cases scope with
                | none => trivial
                | some scope => exact hin scope
  · exact hin scope

theorem AdmitCase.run_submits (v : AdmitCase) : (v.run env).Submits (v.Submitted env) := by
  intro row
  rcases row with _ | _ | existing
  · trivial
  · dsimp only
    split
    · trivial
    · exact Program.Submits.retry (v.attempt_submits _) _ 4
  · trivial

theorem RefundCase.run_submits (v : RefundCase) : (v.run env).Submits (v.Submitted env) := by
  intro row
  rcases row with _ | _ | receipt
  · trivial
  · exact ⟨.absent, fun done => by cases done <;> trivial⟩
  · dsimp only
    split
    · trivial
    rename_i hsame
    simp only [not_or, not_not, ne_eq] at hsame
    obtain ⟨hbeneficiary, hkind, hcase⟩ := hsame
    split
    · exact ⟨.already, fun done => by cases done <;> trivial⟩
    split
    · trivial
    rename_i week hweek
    intro stored
    dsimp only
    split
    · trivial
    rename_i plan hplan
    have hwritten : plan.receipt = v.refunded receipt := by
      cases stored with
      | none => simp [RefundCase.plan, readBack] at hplan
      | some stored =>
          obtain ⟨-, -, -, hreceipt, -⟩ := RefundCase.planned hplan
          exact hreceipt
    exact ⟨.refunded receipt plan hkind hcase hbeneficiary hwritten, fun done => by cases done <;> trivial⟩

/-! ## What it does to the receipts -/

section

variable {t : Table Key Row} {ops : List (Write Key Row)}

/-- An admission that commits spends its case. -/
theorem AdmitCase.Submitted.spends {v : AdmitCase} (h : v.Submitted env ops) (ha : t.Admits ops)
    (hc : Change env t (t.apply ops)) : ∃ receipt, Spends env t (t.apply ops) receipt ∧
      receipt.caseKind = v.kind ∧ receipt.supportCaseId = v.caseId ∧ receipt.beneficiaryId = v.beneficiary := by
  obtain ⟨week, scope, plan, count, hreceipt, rfl⟩ := h
  have hmem : Write.putNew (.receipt (env.caseIdentity v.kind v.caseId)) plan.receipt ∈
      v.operations env week scope plan := v.persist.mem_operations (by simp)
  have habsent : t.row (.receipt (env.caseIdentity v.kind v.caseId)) = none := by
    simpa [Write.putNew, Write.put] using ha.2 _ hmem
  have hafter : (t.apply (v.operations env week scope plan)).row
      (.receipt (env.caseIdentity v.kind v.caseId)) = some plan.receipt :=
    Table.row_apply_of_mem t ha.1 hmem
  rcases hc.receipts with hsame | ⟨receipt, hspends⟩ | ⟨returned, refunded, hreturns⟩
  · rw [hsame, habsent] at hafter
    cases hafter
  · by_cases hx : env.caseIdentity v.kind v.caseId =
        env.caseIdentity receipt.caseKind receipt.supportCaseId
    · rw [hx, hspends.after] at hafter
      cases hafter
      refine ⟨_, hspends, ?_⟩
      rw [hreceipt]
      exact ⟨rfl, rfl, rfl⟩
    · rw [hspends.others _ hx, habsent] at hafter
      cases hafter
  · by_cases hx : env.caseIdentity v.kind v.caseId =
        env.caseIdentity returned.caseKind returned.supportCaseId
    · rw [hx, hreturns.stored] at habsent
      cases habsent
    · rw [hreturns.others _ hx, habsent] at hafter
      cases hafter

/-- What ends with the case of a refund: it is given back, or there is nothing to
give back. -/
inductive CaseEnds (env : Env) (v : RefundCase) (t t' : Table Key Row) : Prop where
  | returned (receipt refunded : ReceiptRow) (returns : Returns env t t' receipt refunded)
      (kind : receipt.caseKind = v.kind) (case : receipt.supportCaseId = v.caseId)
      (beneficiary : receipt.beneficiaryId = v.beneficiary)
  | absent (none : t.row (.receipt (env.caseIdentity v.kind v.caseId)) = none)
  | already (receipt : ReceiptRow)
      (stored : t.row (.receipt (env.caseIdentity v.kind v.caseId)) = some receipt)
      (refunded : receipt.refundedAt ≠ none)

theorem RefundCase.Submitted.ends {v : RefundCase} (h : v.Submitted env ops) (ha : t.Admits ops)
    (hc : Change env t (t.apply ops)) : CaseEnds env v t (t.apply ops) := by
  cases h with
  | absent =>
      refine .absent (Option.isNone_iff_eq_none.mp ?_)
      exact ha.2 (.check (.receipt (env.caseIdentity v.kind v.caseId)) Option.isNone)
        (v.persist.mem_operations (by simp))
  | already =>
      have hcondition : (t.row (.receipt (env.caseIdentity v.kind v.caseId))).any
          (fun row => row.refundedAt.isSome) = true :=
        ha.2 (.check (.receipt (env.caseIdentity v.kind v.caseId))
          (Option.any fun row => row.refundedAt.isSome)) (v.persist.mem_operations (by simp))
      obtain ⟨receipt, hstored, hrefunded⟩ := (Option.any_eq_true _ _).mp hcondition
      exact .already receipt hstored fun he => by simp [he] at hrefunded
  | refunded receipt plan kind case beneficiary written =>
      have hmem : Write.put (.receipt (env.caseIdentity v.kind v.caseId)) plan.receipt
          (RefundCase.receiptCondition receipt) ∈ v.operations env receipt plan :=
        v.persist.mem_operations (by simp)
      obtain ⟨stored, hstored, hcondition⟩ : ∃ stored,
          t.row (.receipt (env.caseIdentity v.kind v.caseId)) = some stored ∧ stored.refundedAt = none := by
        obtain ⟨stored, hstored, hboth⟩ := (Option.any_eq_true _ _).mp (ha.2 _ hmem)
        exact ⟨stored, hstored, by simpa using (of_decide_eq_true hboth).2⟩
      have hafter : (t.apply (v.operations env receipt plan)).row
          (.receipt (env.caseIdentity v.kind v.caseId)) = some (v.refunded receipt) :=
        written ▸ Table.row_apply_of_mem t ha.1 hmem
      -- It was not refunded before, and is now.
      have hchanged : (t.apply (v.operations env receipt plan)).row
          (.receipt (env.caseIdentity v.kind v.caseId)) ≠ t.row (.receipt (env.caseIdentity v.kind v.caseId)) := by
        rw [hafter, hstored]
        intro he
        cases he
        cases hcondition
      rcases hc.receipts with hsame | ⟨spent, hspends⟩ | ⟨returned, refunded, hreturns⟩
      · exact absurd (hsame _) hchanged
      · by_cases hx : env.caseIdentity v.kind v.caseId =
            env.caseIdentity spent.caseKind spent.supportCaseId
        · rw [hx, hspends.absent] at hstored
          cases hstored
        · exact absurd (hspends.others _ hx) hchanged
      · by_cases hx : env.caseIdentity v.kind v.caseId =
            env.caseIdentity returned.caseKind returned.supportCaseId
        · rw [hx, hreturns.after] at hafter
          obtain ⟨observed, reason, hrefund⟩ := hreturns.refund
          have hrow : returned.refund observed reason = v.refunded receipt :=
            hrefund.symm.trans (Option.some.inj hafter)
          refine .returned returned refunded hreturns ?_ ?_ ?_
          · exact (congrArg ReceiptRow.caseKind hrow).trans kind
          · exact (congrArg ReceiptRow.supportCaseId hrow).trans case
          · exact (congrArg ReceiptRow.beneficiaryId hrow).trans beneficiary
        · exact absurd (hreturns.others _ hx) hchanged

end

end Stoa.TeacherSupport
