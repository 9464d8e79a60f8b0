import Stoa.Model.BillingRefunds
import Stoa.Verification.Subscription.Handlers
import Stoa.Store.Auxiliary

/-! # Refunds and the payment

What may still be refunded is read before the key is reserved, and written after
the provider has been asked. The books are in order as long as nobody asks the
provider on a billing row that has changed since, or with a refund that has not
been written. -/

namespace Stoa.Subscription

open RowStore

variable {env : RefundEnv}

/-! ## The books -/

def refundTo (parent : String) : (k : Key) → Row k → ℤ
  | .providerRefund _, refund => if refund.parentId = parent then refund.amount else 0
  | _, _ => 0

/-- What the provider has refunded of a parent's payment. -/
def executed (t : Table Key Row) (parent : String) : ℤ := t.total (refundTo parent)

def paidAmount (t : Table Key Row) (parent : String) : ℤ :=
  (t.row (.billing parent)).elim 0 fun row => amountValue row.latestInvoice.amountPaid

def refundedAmount (t : Table Key Row) (parent : String) : ℤ :=
  (t.row (.billing parent)).elim 0 fun row => amountValue row.latestInvoice.amountRefunded

/-- Every refund that the provider has executed for a parent is recorded as a
success, after it was written to the billing row. -/
def AllRecorded (env : RefundEnv) (t : Table Key Row) (parent : String) : Prop :=
  ∀ key refund, t.row (.providerRefund key) = some refund → refund.parentId = parent →
    ∃ row, t.row (.refundIdempotency parent (env.keyHash key)) = some row ∧ row.status = .succeeded

/-- The provider executed a refund that is not recorded. -/
def Unrecorded (env : RefundEnv) (t : Table Key Row) (parent key : String) : Prop :=
  (∃ refund, t.row (.providerRefund key) = some refund ∧ refund.parentId = parent) ∧
    ∃ row, t.row (.refundIdempotency parent (env.keyHash key)) = some row ∧ row.status ≠ .succeeded

theorem Unrecorded.not_allRecorded {t : Table Key Row} {parent key : String}
    (h : Unrecorded env t parent key) : ¬ AllRecorded env t parent := by
  obtain ⟨⟨refund, hrefund, hparent⟩, row, hrow, hstatus⟩ := h
  intro hall
  obtain ⟨row', hrow', hsucceeded⟩ := hall key refund hrefund hparent
  cases hrow.symm.trans hrow'
  exact hstatus hsucceeded

/-- How far a call has come. -/
inductive Stage where
  | outside
  | reserved (parent key : String)
  | executed (parent key : String) (existing : BillingRow) (amount : ℤ)
  | recorded (parent key : String)
  | failing (parent key : String)

namespace Stage

/-- The key that a call has reserved. -/
def owner : Stage → Option (String × String)
  | outside => none
  | reserved parent key | executed parent key _ _ | recorded parent key | failing parent key =>
    some (parent, key)

/-- The parent whose refund a call has executed and not recorded yet. -/
def pending : Stage → Option String
  | outside | reserved _ _ | failing _ _ => none
  | executed parent _ _ _ | recorded parent _ => some parent

/-- What a call knows at its stage. -/
def Holds (env : RefundEnv) (t : Table Key Row) : Stage → Prop
  | outside => True
  | reserved parent key =>
    (∃ row, t.row (.refundIdempotency parent (env.keyHash key)) = some row ∧
      row.status ≠ .succeeded) ∧
    ∀ refund, t.row (.providerRefund key) = some refund → refund.parentId ≠ parent
  | executed parent key existing amount =>
    Unrecorded env t parent key ∧ t.row (.billing parent) = some existing ∧
      Subscription.executed t parent ≤ amountValue existing.latestInvoice.amountRefunded + amount
  | recorded parent key =>
    Unrecorded env t parent key ∧ Subscription.executed t parent ≤ refundedAmount t parent
  | failing parent key =>
    (t.row (.refundIdempotency parent (env.keyHash key))).isSome

end Stage

/-- The books of all parents, and what the running calls know. -/
structure Books (env : RefundEnv) (t : Table Key Row) (g : ℕ → Option Stage) : Prop where
  within : ∀ parent, executed t parent ≤ max (paidAmount t parent) 0
  settled : ∀ parent, AllRecorded env t parent → executed t parent ≤ max (refundedAmount t parent) 0
  reserved : ∀ key refund, t.row (.providerRefund key) = some refund →
    (t.row (.refundIdempotency refund.parentId (env.keyHash key))).isSome
  stages : ∀ i x, g i = some x → x.Holds env t
  owners : ∀ i j x y, g i = some x → g j = some y → i ≠ j → ∀ parent key key',
    x.owner = some (parent, key) → y.owner = some (parent, key') → env.keyHash key ≠ env.keyHash key'
  pending : ∀ i j x y, g i = some x → g j = some y → i ≠ j → ∀ parent,
    x.pending = some parent → y.pending ≠ some parent

/-- Where a call asks the provider, it goes on as if it had read the billing row
as it is stored. That row counts no negative refund, and all executed refunds of
the parent are recorded. -/
def AsksCurrent (env : RefundEnv) (r : RefundRequest)
    (p : Program Key Row (Except Raised RefundResponse)) (t : Table Key Row) : Prop :=
  ∀ v, r.checked = .ok v → (∃ existing, p = (v.execute env existing).run) →
    ∃ existing, t.row (.billing r.parentId) = some existing ∧ p = (v.execute env existing).run ∧
      0 ≤ amountValue existing.latestInvoice.amountRefunded ∧ AllRecorded env t r.parentId

/-! ## Values -/

theorem readiness_ok {v : Refund} {existing : Option BillingRow} {item : BillingRow}
    (h : v.readiness env existing = .ok item) :
    existing = some item ∧ v.amount ≤ eligibleAmount item.latestInvoice := by
  unfold Refund.readiness at h
  split at h
  · cases h
  · rename_i row
    split at h
    · cases h
    split at h
    · cases h
    rename_i hamount
    split at h
    · cases h
    cases h
    exact ⟨rfl, not_lt.mp hamount⟩

/-- What is eligible is what is left of the payment. -/
theorem amount_le {v : Refund} {invoice : Invoice} (h : v.amount ≤ eligibleAmount invoice) :
    amountValue invoice.amountRefunded + v.amount ≤ amountValue invoice.amountPaid := by
  have hpositive := v.positive
  unfold eligibleAmount at h
  omega

theorem checked_parent {r : RefundRequest} {v : Refund} (h : r.checked = .ok v) :
    v.request = r := by
  unfold RefundRequest.checked at h
  split at h
  · split at h
    · cases h
    split at h
    · cases h
    cases h
    rfl
  · cases h

theorem executed_congr {t u : Table Key Row}
    (h : ∀ key, u.row (.providerRefund key) = t.row (.providerRefund key)) (parent : String) :
    executed u parent = executed t parent := by
  have hagrees : u.AgreesOn (fun k => ∃ key, k = .providerRefund key) t := by
    rintro _ ⟨key, rfl⟩
    exact h key
  refine hagrees.total fun k item hk => ?_
  cases k with
  | providerRefund key => exact absurd ⟨key, rfl⟩ hk
  | _ => rfl

theorem paidAmount_congr {t u : Table Key Row} {parent : String}
    (h : u.row (.billing parent) = t.row (.billing parent)) :
    paidAmount u parent = paidAmount t parent := by
  rw [paidAmount, h]
  rfl

theorem refundedAmount_congr {t u : Table Key Row} {parent : String}
    (h : u.row (.billing parent) = t.row (.billing parent)) :
    refundedAmount u parent = refundedAmount t parent := by
  rw [refundedAmount, h]
  rfl

/-- A new refund of the provider. -/
theorem executed_set {t : Table Key Row} {key : String} (h : t.row (.providerRefund key) = none)
    (refund : ProviderRefund) (parent : String) :
    executed (t.set (.providerRefund key) (some refund)) parent =
      executed t parent + if refund.parentId = parent then refund.amount else 0 := by
  have hset := Table.total_set t (refundTo parent) (.providerRefund key) (some refund)
  rw [h] at hset
  simpa [executed, refundTo] using hset

/-! ## One call goes on -/

section

variable {t u : Table Key Row} {g : ℕ → Option Stage} {i : ℕ} {x y : Stage}

/-- A call that has come further: what it knows now, and what it shares with no
other call. -/
theorem Books.replace (h : Books env t g)
    (hwithin : ∀ parent, executed u parent ≤ max (paidAmount u parent) 0)
    (hsettled : ∀ parent, AllRecorded env u parent →
      executed u parent ≤ max (refundedAmount u parent) 0)
    (hreserved : ∀ key refund, u.row (.providerRefund key) = some refund →
      (u.row (.refundIdempotency refund.parentId (env.keyHash key))).isSome)
    (hothers : ∀ j z, j ≠ i → g j = some z → z.Holds env u) (hy : y.Holds env u)
    (howners : ∀ j z, j ≠ i → g j = some z → ∀ parent key key', y.owner = some (parent, key) →
      z.owner = some (parent, key') → env.keyHash key ≠ env.keyHash key')
    (hpending : ∀ j z, j ≠ i → g j = some z → ∀ parent, y.pending = some parent →
      z.pending ≠ some parent) :
    Books env u (Function.update g i (some y)) where
  within := hwithin
  settled := hsettled
  reserved := hreserved
  stages := by
    intro j z hj
    by_cases hji : j = i
    · subst hji
      rw [Function.update_self, Option.some_inj] at hj
      exact hj ▸ hy
    · rw [Function.update_of_ne hji] at hj
      exact hothers j z hji hj
  owners := by
    intro j j' z z' hj hj' hne parent key key' hz hz'
    by_cases hji : j = i
    · subst hji
      rw [Function.update_self, Option.some_inj] at hj
      rw [Function.update_of_ne hne.symm] at hj'
      exact howners j' z' hne.symm hj' parent key key' (hj ▸ hz) hz'
    · rw [Function.update_of_ne hji] at hj
      by_cases hji' : j' = i
      · subst hji'
        rw [Function.update_self, Option.some_inj] at hj'
        exact (howners j z hji hj parent key' key (hj' ▸ hz') hz).symm
      · rw [Function.update_of_ne hji'] at hj'
        exact h.owners j j' z z' hj hj' hne parent key key' hz hz'
  pending := by
    intro j j' z z' hj hj' hne parent hz hz'
    by_cases hji : j = i
    · subst hji
      rw [Function.update_self, Option.some_inj] at hj
      rw [Function.update_of_ne hne.symm] at hj'
      exact hpending j' z' hne.symm hj' parent (hj ▸ hz) hz'
    · rw [Function.update_of_ne hji] at hj
      by_cases hji' : j' = i
      · subst hji'
        rw [Function.update_self, Option.some_inj] at hj'
        exact hpending j z hji hj parent (hj' ▸ hz') hz
      · rw [Function.update_of_ne hji'] at hj'
        exact h.pending j j' z z' hj hj' hne parent hz hz'

/-- A call that has returned knows nothing any more. -/
theorem Books.remove (h : Books env t g) (i : ℕ) : Books env t (Function.update g i none) := by
  have hold : ∀ {j : ℕ} {z : Stage}, Function.update g i none j = some z → g j = some z := by
    intro j z hj
    by_cases hji : j = i
    · subst hji
      rw [Function.update_self] at hj
      cases hj
    · rwa [Function.update_of_ne hji] at hj
  exact {
    within := h.within
    settled := h.settled
    reserved := h.reserved
    stages := fun j z hj => h.stages j z (hold hj)
    owners := fun j j' z z' hj hj' => h.owners j j' z z' (hold hj) (hold hj')
    pending := fun j j' z z' hj hj' => h.pending j j' z z' (hold hj) (hold hj') }

/-- What a call knows depends on its own key, on the provider's refunds, and on
the billing row while it has a refund to write. -/
theorem Stage.Holds.congr {z : Stage} (h : z.Holds env t)
    (hrefunds : ∀ key, u.row (.providerRefund key) = t.row (.providerRefund key))
    (howner : ∀ parent key, z.owner = some (parent, key) →
      u.row (.refundIdempotency parent (env.keyHash key)) =
        t.row (.refundIdempotency parent (env.keyHash key)))
    (hbilling : ∀ parent, z.pending = some parent →
      u.row (.billing parent) = t.row (.billing parent)) : z.Holds env u := by
  cases z with
  | outside => trivial
  | reserved parent key =>
      simp only [Holds, howner parent key rfl, hrefunds key]
      exact h
  | executed parent key existing amount =>
      simp only [Holds, Unrecorded, howner parent key rfl, hrefunds key, hbilling parent rfl,
        executed_congr hrefunds]
      exact h
  | recorded parent key =>
      simp only [Holds, Unrecorded, howner parent key rfl, hrefunds key, executed_congr hrefunds,
        refundedAmount_congr (hbilling parent rfl)]
      exact h
  | failing parent key =>
      simp only [Holds, howner parent key rfl]
      exact h

/-- A stage that owns a key finds its row. -/
theorem Stage.Holds.row {z : Stage} (h : z.Holds env t) {parent key : String}
    (howner : z.owner = some (parent, key)) :
    (t.row (.refundIdempotency parent (env.keyHash key))).isSome := by
  cases z with
  | outside => cases howner
  | reserved parent' key' =>
      cases howner
      obtain ⟨⟨row, hrow, -⟩, -⟩ := h
      exact hrow ▸ rfl
  | executed parent' key' existing amount =>
      cases howner
      obtain ⟨⟨-, row, hrow, -⟩, -⟩ := h
      exact hrow ▸ rfl
  | recorded parent' key' =>
      cases howner
      obtain ⟨⟨-, row, hrow, -⟩, -⟩ := h
      exact hrow ▸ rfl
  | failing parent' key' =>
      cases howner
      exact h

/-- A stage with a refund to record has not recorded it. -/
theorem Stage.Holds.unrecorded {z : Stage} (h : z.Holds env t) {parent : String}
    (hpending : z.pending = some parent) : ¬ AllRecorded env t parent := by
  cases z with
  | outside | reserved parent' key' | failing parent' key' => cases hpending
  | executed parent' key' existing amount =>
      cases hpending
      exact h.1.not_allRecorded
  | recorded parent' key' =>
      cases hpending
      exact h.1.not_allRecorded

/-! ## The row of a key -/

section

variable {parent : String} {key : String} {row : RefundIdempotencyRow}

/-- The row of a key that no other call owns is written. -/
theorem Books.setIdempotency (h : Books env t g)
    (hu : u = t.set (.refundIdempotency parent (env.keyHash key)) (some row))
    (hothers : ∀ j z, j ≠ i → g j = some z → ∀ key', z.owner = some (parent, key') →
      env.keyHash key' ≠ env.keyHash key)
    (hsettled : AllRecorded env u parent → executed t parent ≤ max (refundedAmount t parent) 0)
    (hy : y.Holds env u) (howner : ∀ o, y.owner = some o → o = (parent, key))
    (hpending : y.pending = none) : Books env u (Function.update g i (some y)) := by
  subst hu
  have hrefunds : ∀ k, (t.set (.refundIdempotency parent (env.keyHash key)) (some row)).row
      (.providerRefund k) = t.row (.providerRefund k) := fun k =>
    Table.row_set_of_ne _ _ (by simp)
  have hbilling : ∀ k, (t.set (.refundIdempotency parent (env.keyHash key)) (some row)).row
      (.billing k) = t.row (.billing k) := fun k => Table.row_set_of_ne _ _ (by simp)
  refine h.replace (fun p => ?_) (fun p hall => ?_) (fun k refund hrefund => ?_)
    (fun j z hj hz => ?_) hy (fun j z hj hz p k k' hyo hzo => ?_) (fun j z hj hz p hyp => ?_)
  · rw [executed_congr hrefunds, paidAmount_congr (hbilling p)]
    exact h.within p
  · rw [executed_congr hrefunds, refundedAmount_congr (hbilling p)]
    by_cases hp : p = parent
    · subst hp
      exact hsettled hall
    · refine h.settled p fun k refund hrefund hparent => ?_
      obtain ⟨found, hfound, hstatus⟩ := hall k refund ((hrefunds k).trans hrefund) hparent
      rw [Table.row_set_of_ne _ _ (by simp [hp])] at hfound
      exact ⟨found, hfound, hstatus⟩
  · rw [hrefunds] at hrefund
    by_cases hk : Key.refundIdempotency refund.parentId (env.keyHash k) =
        .refundIdempotency parent (env.keyHash key)
    · rw [hk, Table.row_set_self]
      rfl
    · rw [Table.row_set_of_ne _ _ hk]
      exact h.reserved k refund hrefund
  · refine (h.stages j z hz).congr hrefunds (fun p k hzo => Table.row_set_of_ne _ _ fun he => ?_)
      fun p _ => hbilling p
    obtain ⟨rfl, hhash⟩ := Key.refundIdempotency.inj he
    exact hothers j z hj hz k hzo hhash
  · cases howner _ hyo
    exact (hothers j z hj hz k' hzo).symm
  · rw [hpending] at hyp
    cases hyp

/-- A key is reserved that has no row yet. -/
theorem Books.reserve (h : Books env t g) (hstatus : row.status = .inProgress)
    (hnone : t.row (.refundIdempotency parent (env.keyHash key)) = none) :
    Books env (t.set (.refundIdempotency parent (env.keyHash key)) (some row))
      (Function.update g i (some (.reserved parent key))) := by
  have hfree : ∀ k refund, t.row (.providerRefund k) = some refund → refund.parentId = parent →
      env.keyHash k ≠ env.keyHash key := fun k refund hrefund hparent he => by
    have hsome := h.reserved k refund hrefund
    rw [hparent, he, hnone] at hsome
    cases hsome
  refine h.setIdempotency rfl (fun j z hj hz key' hzo he => ?_) (fun hall => ?_) ⟨?_, ?_⟩
    (fun o ho => (Option.some_inj.mp ho).symm) rfl
  · have hsome := (h.stages j z hz).row hzo
    rw [he, hnone] at hsome
    cases hsome
  · refine h.settled parent fun k refund hrefund hparent => ?_
    obtain ⟨found, hfound, hsucceeded⟩ := hall k refund
      ((Table.row_set_of_ne _ _ (by simp)).trans hrefund) hparent
    rw [Table.row_set_of_ne _ _ fun he =>
      hfree k refund hrefund hparent (Key.refundIdempotency.inj he).2] at hfound
    exact ⟨found, hfound, hsucceeded⟩
  · exact ⟨row, Table.row_set_self .., by rw [hstatus]; decide⟩
  · intro refund hrefund hparent
    rw [Table.row_set_of_ne _ _ (by simp)] at hrefund
    exact hfree key refund hrefund hparent rfl

/-- A call that owns a key writes its row once more. -/
theorem Books.finish (h : Books env t g) (hi : g i = some x) (hx : x.owner = some (parent, key))
    (hsettled : AllRecorded env
      (t.set (.refundIdempotency parent (env.keyHash key)) (some row)) parent →
        executed t parent ≤ max (refundedAmount t parent) 0) :
    Books env (t.set (.refundIdempotency parent (env.keyHash key)) (some row))
      (Function.update g i (some .outside)) := by
  refine h.setIdempotency rfl (fun j z hj hz key' hzo => ?_) hsettled trivial
    (fun o ho => by cases ho) rfl
  exact h.owners j i z x hz hi hj parent key' key hzo hx

/-- The refund that was written is recorded. -/
theorem Books.succeed (h : Books env t g) (hi : g i = some (.recorded parent key)) :
    Books env (t.set (.refundIdempotency parent (env.keyHash key)) (some row))
      (Function.update g i (some .outside)) := by
  refine h.finish hi rfl fun _ => ?_
  obtain ⟨-, hexecuted⟩ := h.stages i _ hi
  exact hexecuted.trans (le_max_left _ _)

/-- A refund that the provider refused is given up. -/
theorem Books.giveUp (h : Books env t g) (hi : g i = some x) (hx : x.owner = some (parent, key))
    (hstatus : row.status = .failed) :
    Books env (t.set (.refundIdempotency parent (env.keyHash key)) (some row))
      (Function.update g i (some .outside)) := by
  refine h.finish hi hx fun hall => h.settled parent fun k refund hrefund hparent => ?_
  obtain ⟨found, hfound, hsucceeded⟩ := hall k refund
    ((Table.row_set_of_ne _ _ (by simp)).trans hrefund) hparent
  by_cases he : env.keyHash k = env.keyHash key
  · rw [he, Table.row_set_self] at hfound
    cases hfound
    cases hstatus.symm.trans hsucceeded
  · rw [Table.row_set_of_ne _ _ fun hk => he (Key.refundIdempotency.inj hk).2] at hfound
    exact ⟨found, hfound, hsucceeded⟩

end

/-! ## The provider and the billing row -/

section

variable {parent key : String} {existing : BillingRow} {refund : ProviderRefund}

/-- The provider executes a refund that is asked for on the stored billing row. -/
theorem Books.execute (h : Books env t g) (hi : g i = some (.reserved parent key))
    (hnone : t.row (.providerRefund key) = none) (hparent : refund.parentId = parent)
    (hbilling : t.row (.billing parent) = some existing)
    (hnonneg : 0 ≤ amountValue existing.latestInvoice.amountRefunded)
    (hall : AllRecorded env t parent)
    (hfits : amountValue existing.latestInvoice.amountRefunded + refund.amount ≤
      amountValue existing.latestInvoice.amountPaid)
    (hy : (y.Holds env (t.set (.providerRefund key) (some refund)) ∧ y.pending = none) ∨
      y = .executed parent key existing refund.amount)
    (howner : y.owner = some (parent, key)) :
    Books env (t.set (.providerRefund key) (some refund)) (Function.update g i (some y)) := by
  have hother : ∀ {k : Key}, (∀ key, k ≠ .providerRefund key) →
      (t.set (.providerRefund key) (some refund)).row k = t.row k := fun hk =>
    Table.row_set_of_ne _ _ (hk key)
  obtain ⟨⟨row, hrow, hstatus⟩, -⟩ := h.stages i _ hi
  have hsettled := h.settled parent hall
  rw [refundedAmount, hbilling, Option.elim_some] at hsettled
  have hexecuted : executed (t.set (.providerRefund key) (some refund)) parent ≤
      amountValue existing.latestInvoice.amountRefunded + refund.amount := by
    rw [executed_set hnone, if_pos hparent]
    omega
  have hunrecorded : Unrecorded env (t.set (.providerRefund key) (some refund)) parent key :=
    ⟨⟨refund, Table.row_set_self .., hparent⟩, row, (hother (by simp)).trans hrow, hstatus⟩
  -- The refunds of other parents are as they were.
  have hothers : ∀ {p : String}, p ≠ parent →
      executed (t.set (.providerRefund key) (some refund)) p = executed t p := fun {p} hp => by
    rw [executed_set hnone, if_neg fun he => hp (he.symm.trans hparent), add_zero]
  have hold : ∀ {k : String} {found : ProviderRefund}, t.row (.providerRefund k) = some found →
      (t.set (.providerRefund key) (some refund)).row (.providerRefund k) = some found :=
    fun {k found} hk => by
      have hne : Key.providerRefund k ≠ .providerRefund key := fun he => by
        cases he
        cases hnone.symm.trans hk
      rw [Table.row_set_of_ne _ _ hne, hk]
  refine h.replace (fun p => ?_) (fun p hp => ?_) (fun k found hfound => ?_) (fun j z hj hz => ?_)
    ?_ (fun j z hj hz p k k' hyo hzo => ?_) (fun j z hj hz p hyp hzp => ?_)
  · rw [paidAmount_congr (hother (by simp))]
    by_cases hp : p = parent
    · subst hp
      rw [paidAmount, hbilling, Option.elim_some]
      omega
    · rw [hothers hp]
      exact h.within p
  · rw [refundedAmount_congr (hother (by simp))]
    by_cases hpp : p = parent
    · subst hpp
      exact absurd hp hunrecorded.not_allRecorded
    · rw [hothers hpp]
      refine h.settled p fun k found hfound hfor => ?_
      obtain ⟨found', hfound', hsucceeded⟩ := hp k found (hold hfound) hfor
      exact ⟨found', (hother (by simp)).symm.trans hfound', hsucceeded⟩
  · rw [hother (by simp)]
    by_cases hk : k = key
    · subst hk
      rw [Table.row_set_self] at hfound
      cases hfound
      rw [hparent, hrow]
      rfl
    · rw [Table.row_set_of_ne _ _ (by simp [hk])] at hfound
      exact h.reserved k found hfound
  · have hz' := h.stages j z hz
    -- Nobody else has a refund of this parent to record.
    have hfree : z.pending ≠ some parent := fun hpending => hz'.unrecorded hpending hall
    cases z with
    | outside => trivial
    | reserved p k =>
        refine ⟨?_, fun found hfound hfor => ?_⟩
        · rw [hother (by simp)]
          exact hz'.1
        · by_cases hk : k = key
          · subst hk
            rw [Table.row_set_self] at hfound
            cases hfound
            refine h.owners j i _ _ hz hi hj parent k k ?_ rfl rfl
            rw [Stage.owner, ← hfor, hparent]
          · rw [Table.row_set_of_ne _ _ (by simp [hk])] at hfound
            exact hz'.2 found hfound hfor
    | executed p k existing' amount =>
        have hp : p ≠ parent := fun he => hfree (he ▸ rfl)
        obtain ⟨⟨⟨found, hfound, hfor⟩, row', hrow', hstatus'⟩, hbilling', hle⟩ := hz'
        refine ⟨⟨⟨found, hold hfound, hfor⟩, row', (hother (by simp)).trans hrow', hstatus'⟩,
          (hother (by simp)).trans hbilling', ?_⟩
        rw [hothers hp]
        exact hle
    | recorded p k =>
        have hp : p ≠ parent := fun he => hfree (he ▸ rfl)
        obtain ⟨⟨⟨found, hfound, hfor⟩, row', hrow', hstatus'⟩, hle⟩ := hz'
        refine ⟨⟨⟨found, hold hfound, hfor⟩, row', (hother (by simp)).trans hrow', hstatus'⟩, ?_⟩
        rw [hothers hp, refundedAmount_congr (hother (by simp))]
        exact hle
    | failing p k => exact (congrArg Option.isSome (hother (by simp))).trans hz'
  · rcases hy with ⟨hy, -⟩ | rfl
    · exact hy
    · exact ⟨hunrecorded, (hother (by simp)).trans hbilling, hexecuted⟩
  · rw [howner] at hyo
    cases hyo
    exact (h.owners j i z _ hz hi hj parent k' key hzo rfl).symm
  · rcases hy with ⟨-, hnonpending⟩ | rfl
    · rw [hnonpending] at hyp
      cases hyp
    · cases hyp
      exact (h.stages j z hz).unrecorded hzp hall

/-- The refund that was executed is written to the billing row. -/
theorem Books.apply (h : Books env t g) {amount : ℤ}
    (hi : g i = some (.executed parent key existing amount)) (updated : BillingRow)
    (hpaid : updated.latestInvoice.amountPaid = existing.latestInvoice.amountPaid)
    (hrefunded : amountValue updated.latestInvoice.amountRefunded =
      amountValue existing.latestInvoice.amountRefunded + amount)
    (hbilling : u.row (.billing parent) = some updated)
    (hothers : ∀ p, p ≠ parent → u.row (.billing p) = t.row (.billing p))
    (hrefunds : ∀ k, u.row (.providerRefund k) = t.row (.providerRefund k))
    (hrows : ∀ p digest, u.row (.refundIdempotency p digest) = t.row (.refundIdempotency p digest)) :
    Books env u (Function.update g i (some (.recorded parent key))) := by
  obtain ⟨hunrecorded, hstored, hexecuted⟩ := h.stages i _ hi
  have hunrecorded' : Unrecorded env u parent key := by
    unfold Unrecorded
    rw [hrefunds, hrows]
    exact hunrecorded
  refine h.replace (fun p => ?_) (fun p hp => ?_) (fun k found hfound => ?_) (fun j z hj hz => ?_)
    ⟨hunrecorded', ?_⟩ (fun j z hj hz p k k' hyo hzo => ?_) (fun j z hj hz p hyp => ?_)
  · rw [executed_congr hrefunds]
    refine (h.within p).trans (le_of_eq ?_)
    by_cases hpp : p = parent
    · subst hpp
      rw [paidAmount, paidAmount, hbilling, hstored, Option.elim_some, Option.elim_some, hpaid]
    · rw [paidAmount_congr (hothers p hpp)]
  · by_cases hpp : p = parent
    · subst hpp
      exact absurd hp hunrecorded'.not_allRecorded
    · rw [executed_congr hrefunds, refundedAmount_congr (hothers p hpp)]
      refine h.settled p fun k found hfound hfor => ?_
      obtain ⟨row, hrow, hsucceeded⟩ := hp k found ((hrefunds k).trans hfound) hfor
      exact ⟨row, (hrows _ _).symm.trans hrow, hsucceeded⟩
  · rw [hrows]
    exact h.reserved k found ((hrefunds k).symm.trans hfound)
  · refine (h.stages j z hz).congr hrefunds (fun p k _ => hrows _ _) fun p hzp => hothers p fun he => ?_
    subst he
    exact h.pending i j _ z hi hz (Ne.symm hj) p rfl hzp
  · rw [executed_congr hrefunds, refundedAmount, hbilling, Option.elim_some, hrefunded]
    exact hexecuted
  · exact h.owners i j _ z hi hz (Ne.symm hj) p k k' hyo hzo
  · exact h.pending i j _ z hi hz (Ne.symm hj) p hyp

end

end

/-! ## The handler keeps the books -/

section

variable {F : Faults} {v : Refund} {existing : BillingRow} {r : RefundRequest}
  {Cond : Program Key Row (Except Raised RefundResponse) → Table Key Row → Prop} {i : ℕ}
  {c : RefundRequest} {x : Stage}

/-- The books of the table that is seen. -/
abbrev Balanced (env : RefundEnv) (w : View Key Row RefundRequest) (g : ℕ → Option Stage) : Prop :=
  Books env w.table g

/-- Nothing is asked of an answer. -/
abbrev Silent (α : Type) : Except Raised α → Stage → Prop := fun _ _ => True

theorem keeps_transactWrite {α : Type} {ops : List (Write Key Row)} {cancelled : Bool}
    {detail : String} {f : Unit → Handler α}
    {Cond : Program Key Row (Except Raised α) → Table Key Row → Prop}
    (h : ∀ (w : View Key Row RefundRequest) g, Books env w.table g → g i = some x → w.table.Admits ops →
      Continues (Balanced env) (fun y => (f ()).run.Keeps F (Balanced env) Cond i c (Silent α) y)
        (w.commit i c ops) g i) :
    (transactWrite ops cancelled detail >>= f).run.Keeps F (Balanced env) Cond i c (Silent α) x :=
  RowStore.Handler.keeps_commit_bind (fun _ _ => trivial) h

theorem keeps_putItem {α : Type} {k : Key} {item : Row k} {f : Unit → Handler α}
    {Cond : Program Key Row (Except Raised α) → Table Key Row → Prop}
    (h : ∀ (w : View Key Row RefundRequest) g, Books env w.table g → g i = some x →
      Continues (Balanced env) (fun y => (f ()).run.Keeps F (Balanced env) Cond i c (Silent α) y)
        (w.commit i c [.put k item fun _ => true]) g i) :
    (putItem k item >>= f).run.Keeps F (Balanced env) Cond i c (Silent α) x :=
  RowStore.Handler.keeps_commit_bind (fun _ _ => trivial) fun w g hg hi _ => h w g hg hi

theorem record_keeps : (v.record env existing).run.Keeps F (Balanced env) Cond i c (Silent _)
    (.executed v.request.parentId v.idempotencyKey existing v.amount) := by
  refine RowStore.Handler.keeps_commit_bind (fun _ _ => trivial) fun w g hg hi ha => ?_
  refine ⟨.recorded v.request.parentId v.idempotencyKey,
    hg.apply hi (v.updatedItem existing) rfl rfl ?_ ?_ ?_ ?_, keeps_putItem fun w g hg hi => ?_⟩
  · simp [Refund.operations, Table.apply, Write.put, Write.putNew]
  · intro p hp
    simp [Refund.operations, Table.apply, Write.put, Write.putNew, hp]
  · intro k
    simp [Refund.operations, Table.apply, Write.put, Write.putNew]
  · intro p digest
    simp [Refund.operations, Table.apply, Write.put, Write.putNew]
  · exact ⟨.outside, hg.succeed hi, trivial⟩

theorem fail_keeps (hx : x.owner = some (v.request.parentId, v.idempotencyKey)) :
    (v.fail env).run.Keeps F (Balanced env) Cond i c (Silent _) x :=
  keeps_putItem fun _ _ hg hi => ⟨.outside, hg.giveUp hi hx rfl, trivial⟩

/-- What is left of a call determines the billing row that it is going to write. -/
theorem updatedItem_of_execute {existing' : BillingRow}
    (h : (v.execute env existing).run = (v.execute env existing').run) :
    v.record env existing = v.record env existing' ∧
      v.updatedItem existing = v.updatedItem existing' := by
  obtain ⟨-, hnext⟩ := Program.transact.inj h
  have hrecord : v.record env existing = v.record env existing' := congrFun hnext true
  refine ⟨hrecord, ?_⟩
  obtain ⟨hops, -⟩ := Program.transact.inj hrecord
  obtain ⟨hput, -⟩ := List.cons.inj hops
  obtain ⟨-, -, haction⟩ := Write.mk.inj hput
  exact Option.some_inj.mp (congrFun (eq_of_heq haction) none)

theorem execute_keeps (hchecked : r.checked = .ok v)
    (hfits : v.amount ≤ eligibleAmount existing.latestInvoice) :
    (v.execute env existing).run.Keeps F (Balanced env) (AsksCurrent env r) i c (Silent _)
      (.reserved v.request.parentId v.idempotencyKey) := by
  refine RowStore.Handler.keeps_submit_bind (fail_keeps rfl) fun w g hg hi ha hcond => ?_
  obtain ⟨stored, hbilling, hsame, hnonneg, hall⟩ := hcond v hchecked ⟨existing, rfl⟩
  rw [← checked_parent hchecked] at hbilling hall
  obtain ⟨hrecord, hupdated⟩ := updatedItem_of_execute hsame
  -- The row that was read leaves as much as the stored one.
  have hfits' : amountValue stored.latestInvoice.amountRefunded + v.amount ≤
      amountValue stored.latestInvoice.amountPaid := by
    have hpaid := congrArg (fun row : BillingRow => amountValue row.latestInvoice.amountPaid) hupdated
    have hrefunded :=
      congrArg (fun row : BillingRow => amountValue row.latestInvoice.amountRefunded) hupdated
    have hle := amount_le hfits
    simp only [Refund.updatedItem, Refund.refundedInvoice, amountValue, Option.getD_some]
      at hpaid hrefunded hle ⊢
    omega
  -- The provider has no refund under a key that was just reserved.
  have hnone : w.table.row (.providerRefund v.idempotencyKey) = none := by
    obtain ⟨-, hfree⟩ := hg.stages i _ hi
    have hmet : (w.table.row (.providerRefund v.idempotencyKey)).all
        (fun refund => refund = v.providerRequest existing) = true := ha.2 _ (List.mem_cons_self ..)
    cases hrow : w.table.row (.providerRefund v.idempotencyKey) with
    | none => rfl
    | some refund =>
        rw [hrow] at hmet
        have heq : refund = v.providerRequest existing := of_decide_eq_true hmet
        exact absurd (heq ▸ rfl) (hfree refund hrow)
  have happly : w.table.apply [{
      key := .providerRefund v.idempotencyKey
      condition := Option.all fun refund => refund = v.providerRequest existing
      action := fun stored => some (stored.getD (v.providerRequest existing)) }] =
        w.table.set (.providerRefund v.idempotencyKey) (some (v.providerRequest existing)) := by
    simp only [Table.apply, hnone, Option.getD_none]
  simp only [Continues, Balanced, View.table_commit, happly]
  obtain ⟨⟨row, hrow, -⟩, -⟩ := hg.stages i _ hi
  have hkept : ((w.table.set (.providerRefund v.idempotencyKey) (some (v.providerRequest existing))).row
      (.refundIdempotency v.request.parentId (env.keyHash v.idempotencyKey))).isSome := by
    rw [Table.row_set_of_ne _ _ (by simp), hrow]
    rfl
  refine ⟨⟨.executed v.request.parentId v.idempotencyKey stored v.amount,
    hg.execute hi hnone rfl hbilling hnonneg hall hfits' (.inr rfl) rfl, ?_⟩,
    ⟨.failing v.request.parentId v.idempotencyKey, ?_, fail_keeps rfl⟩⟩
  · simp only [if_true, hrecord]
    exact record_keeps
  · exact hg.execute hi hnone rfl hbilling hnonneg hall hfits' (.inl ⟨hkept, rfl⟩) rfl

theorem requireParent_readOnly (parent : String) : (requireParent parent).run.ReadOnly := by
  refine RowStore.Handler.readOnly_bind RowStore.Handler.readOnly_get fun row => ?_
  split
  · split <;> trivial
  · trivial

theorem getPaymentRolloutItem_readOnly : getPaymentRolloutItem.run.ReadOnly := fun _ => trivial

theorem refundExecutionResponse_readOnly (parent : String) :
    (refundExecutionResponse parent).run.ReadOnly :=
  RowStore.Handler.readOnly_bind (requireParent_readOnly parent) fun _ =>
    RowStore.Handler.readOnly_bind RowStore.Handler.readOnly_get fun _ => trivial

/-- Every call keeps the books, as long as it asks on what is current. -/
theorem executeBillingRefund_keeps (r : RefundRequest) :
    (executeBillingRefund env r).run.Keeps F (Balanced env) (AsksCurrent env r) i c (Silent _) .outside := by
  refine RowStore.Handler.keeps_readOnly_bind (requireParent_readOnly _) (fun _ => ?_) fun _ => trivial
  refine RowStore.Handler.keeps_of_bind (fun v hchecked => ?_) fun _ _ => trivial
  refine RowStore.Handler.keeps_get_bind (fun stored => ?_) trivial
  split
  · exact (refundExecutionResponse_readOnly _).keeps fun _ => trivial
  refine RowStore.Handler.keeps_readOnly_bind getPaymentRolloutItem_readOnly
    (fun rollout => ?_) fun _ => trivial
  split
  · trivial
  split
  · trivial
  refine RowStore.Handler.keeps_get_bind (fun existing => ?_) trivial
  refine RowStore.Handler.keeps_of_bind (fun item hready => ?_) fun _ _ => trivial
  obtain ⟨-, hfits⟩ := readiness_ok hready
  refine keeps_transactWrite fun w g hg _ ha => ⟨.reserved v.request.parentId v.idempotencyKey,
    hg.reserve rfl ?_, execute_keeps hchecked hfits⟩
  exact Option.isNone_iff_eq_none.mp (ha.2 _ (List.mem_cons_self ..))

end

/-! ## Every run -/

/-- The provider has executed no refund yet. -/
def NoRefunds (t : Table Key Row) : Prop := ∀ key, t.row (.providerRefund key) = none

theorem NoRefunds.executed {t : Table Key Row} (h : NoRefunds t) (parent : String) :
    executed t parent = 0 := by
  refine Table.total_eq_zero t _ fun k item hrow => ?_
  cases k with
  | providerRefund key => cases (h key).symm.trans hrow
  | _ => rfl

theorem NoRefunds.books {t : Table Key Row} (h : NoRefunds t) : Books env t fun _ => none where
  within := fun parent => h.executed parent ▸ le_max_right _ _
  settled := fun parent _ => h.executed parent ▸ le_max_right _ _
  reserved := fun key _ hrefund => by cases (h key).symm.trans hrefund
  stages := fun _ _ hi => by cases hi
  owners := fun _ _ _ _ hi => by cases hi
  pending := fun _ _ _ _ hi => by cases hi

theorem Books.drift {t t' : Table Key Row} {g : ℕ → Option Stage} (h : Books env t g)
    (hd : t'.AgreesOn IsRefundRow t) : Books env t' g := by
  have hrefunds : ∀ key, t'.row (.providerRefund key) = t.row (.providerRefund key) :=
    fun key => hd (.providerRefund key) trivial
  have hrows : ∀ parent digest, t'.row (.refundIdempotency parent digest) =
      t.row (.refundIdempotency parent digest) := fun parent digest =>
    hd (.refundIdempotency parent digest) trivial
  have hbilling : ∀ parent, t'.row (.billing parent) = t.row (.billing parent) :=
    fun parent => hd (.billing parent) trivial
  exact {
    within := fun parent => by
      rw [executed_congr hrefunds, paidAmount_congr (hbilling parent)]
      exact h.within parent
    settled := fun parent hall => by
      rw [executed_congr hrefunds, refundedAmount_congr (hbilling parent)]
      refine h.settled parent fun key refund hrefund hfor => ?_
      obtain ⟨row, hrow, hsucceeded⟩ := hall key refund ((hrefunds key).trans hrefund) hfor
      exact ⟨row, (hrows _ _).symm.trans hrow, hsucceeded⟩
    reserved := fun key refund hrefund => by
      rw [hrows]
      exact h.reserved key refund ((hrefunds key).symm.trans hrefund)
    stages := fun i x hi =>
      (h.stages i x hi).congr hrefunds (fun _ _ _ => hrows _ _) fun parent _ => hbilling parent
    owners := h.owners
    pending := h.pending }

/-! ## One refund for a key -/

/-- What the provider has executed stays. -/
def RefundsStay (t u : Table Key Row) : Prop :=
  ∀ key refund, t.row (.providerRefund key) = some refund → u.row (.providerRefund key) = some refund

def refunds : Interference Key Row where
  Inv := fun _ => True
  Rely := RefundsStay
  refl := fun _ _ _ h => h
  trans := fun h h' key refund hrefund => h' key refund (h key refund hrefund)

/-- The provider executes a refund. -/
def Executes (t u : Table Key Row) (key : String) : Prop :=
  t.row (.providerRefund key) = none ∧ (u.row (.providerRefund key)).isSome

theorem RefundsStay.of_ops {t : Table Key Row} {ops : List (Write Key Row)}
    (h : ∀ w ∈ ops, ∀ key, w.key ≠ .providerRefund key) : RefundsStay t (t.apply ops) := by
  intro key refund hrefund
  rw [Table.row_apply_of_notMem _ _ _ fun w hw => (h w hw key).symm]
  exact hrefund

theorem RefundsStay.of_agrees {t u : Table Key Row} (h : u.AgreesOn IsRefundRow t) :
    RefundsStay t u :=
  fun key _ hrefund => (h (.providerRefund key) trivial).trans hrefund

section

variable {F : Faults} {own : List (Table Key Row × Table Key Row)} {t : Table Key Row} {v : Refund}

theorem putIdempotency_safe {parent : String} {digest : Sha256} {item : RefundIdempotencyRow} :
    (putItem (.refundIdempotency parent digest) item).run.Safe F refunds RefundsStay (Quiet _) own t := by
  refine putItem_quiet fun u => RefundsStay.of_ops fun w hw key => ?_
  rw [List.mem_singleton.mp hw]
  simp [Write.put]

theorem fail_safe : (v.fail env).run.Safe F refunds RefundsStay (Quiet _) own t :=
  bind_quiet putIdempotency_safe fun _ _ _ => trivial

theorem record_safe {existing : BillingRow} :
    (v.record env existing).run.Safe F refunds RefundsStay (Quiet _) own t := by
  refine bind_quiet (RowStore.Handler.safe_submit_bind ?_ ?_) fun updated _ _ =>
    bind_quiet putIdempotency_safe fun _ _ _ => trivial
  · exact fun _ _ _ => trivial
  · refine fun u _ _ _ => ⟨RefundsStay.of_ops fun w hw key => ?_, trivial, trivial⟩
    simp only [Refund.operations, List.mem_cons, List.not_mem_nil, or_false] at hw
    rcases hw with rfl | rfl | rfl <;> simp [Write.put, Write.putNew]

theorem execute_safe {existing : BillingRow} :
    (v.execute env existing).run.Safe F refunds RefundsStay (Quiet _) own t := by
  refine RowStore.Handler.safe_submit_bind (fun _ _ _ => fail_safe) fun u _ _ _ =>
    ⟨fun key refund hrefund => ?_, record_safe, fail_safe⟩
  by_cases hkey : key = v.idempotencyKey
  · subst hkey
    simp only [Table.apply, Table.row_set_self, hrefund, Option.getD_some]
  · rw [Table.row_apply_of_notMem _ _ _ fun w hw => ?_]
    · exact hrefund
    · rw [List.mem_singleton.mp hw]
      simp only [ne_eq, Key.providerRefund.injEq]
      exact hkey

theorem executeBillingRefund_safe (r : RefundRequest) :
    (executeBillingRefund env r).run.Safe F refunds RefundsStay (Quiet _) own t := by
  refine requireParent_quiet fun _ u _ => of_quiet fun v _ => get_quiet fun w _ => ?_
  split
  · exact (refundExecutionResponse_readOnly _).safe
  refine bind_quiet getPaymentRolloutItem_readOnly.safe fun rollout own x => ?_
  split
  · trivial
  split
  · trivial
  refine get_quiet fun y _ => of_quiet fun item _ => ?_
  refine transactWrite_quiet (fun z _ _ => RefundsStay.of_ops fun w hw key => ?_)
    fun _ _ => execute_safe
  rw [List.mem_singleton.mp hw]
  simp [Write.putNew, Write.put]

end

def refundContract (env : RefundEnv) (faults : Faults) : Contract (refundService env faults) where
  toInterference := refunds
  Move := fun _ => RefundsStay
  move_inv := fun _ _ => trivial
  move_rely := fun _ h => h
  drift_inv := fun _ _ => trivial
  drift_rely := fun _ h => .of_agrees h

/-- A key leads to one refund of the provider, whatever the calls do. -/
theorem executes_unique {faults : Faults} {t : Table Key Row}
    {s : State Key Row RefundRequest (Except Raised RefundResponse)}
    (h : Reachable (refundService env faults) t s)
    {e e' : Commit Key Row RefundRequest} (he : e ∈ s.history) (he' : e' ∈ s.history) {key : String}
    (hexecutes : Executes e.before e.after key) (hexecutes' : Executes e'.before e'.after key) :
    e = e' := by
  have hs := Reachable.sound (Γ := refundContract env faults) h trivial (Q := fun _ => Quiet _)
    fun r _ _ => executeBillingRefund_safe r
  refine hs.commit_unique (P := fun u u' => Executes u u' key) (fun d _ u _ hd hrely hd' => ?_)
    he he' hexecutes hexecutes'
  obtain ⟨refund, hrefund⟩ := Option.isSome_iff_exists.mp hd.2
  cases hd'.1.symm.trans (hrely key refund hrefund)

/-- The books balance in every run in which the provider is asked on current
rows: what it has executed for a parent is at most what was paid. -/
theorem refunds_within_payment {faults : Faults} {t : Table Key Row}
    {s : State Key Row RefundRequest (Except Raised RefundResponse)} (hstart : NoRefunds t)
    (h : Reachable (refundService env faults) t s) :
    (∀ e ∈ s.history, ∀ e' ∈ s.history, ∀ key, Executes e.before e.after key →
      Executes e'.before e'.after key → e = e') ∧
    (StepsMeeting (refundService env faults) (AsksCurrent env) (.initial t) s →
      ∀ parent, executed s.table parent ≤ max (paidAmount s.table parent) 0) := by
  refine ⟨fun e he e' he' key hexecutes hexecutes' =>
    executes_unique h he he' hexecutes hexecutes', fun hrun parent => ?_⟩
  have hopen : ∀ (r : RefundRequest) (w : View Key Row RefundRequest) (g : ℕ → Option Stage) (i : ℕ),
      Books env w.table g → g i = none → (refundService env faults).mayStart w.clock r →
        Continues (Balanced env) (fun y => ((refundService env faults).body r).Keeps faults
          (Balanced env) (AsksCurrent env r) i r (Silent _) y) w g i := fun r w g i hbooks hi _ => by
    refine ⟨.outside, ?_, executeBillingRefund_keeps r⟩
    exact hbooks.replace hbooks.within hbooks.settled hbooks.reserved
      (fun j z _ hz => hbooks.stages j z hz) trivial (fun _ _ _ _ _ _ _ hnone => by cases hnone)
      fun _ _ _ _ _ hnone => by cases hnone
  obtain ⟨g, hg⟩ := hrun.kept (Φ := Balanced env) hstart.books (fun _ _ i hbooks => hbooks.remove i)
    (fun _ _ _ hbooks hd => hbooks.drift hd) (fun _ _ _ hbooks _ => hbooks)
    fun r w g i hbooks hi _ => hopen r w g i hbooks hi
  exact hg.holds.within parent

/-! ## A refund that nobody interferes with -/

section

variable {t : Table Key Row} {r : RefundRequest} {v : Refund} {parent : String}

/-- Nothing is asked where the provider is not. -/
theorem asksCurrent_of_ne {w : Write Key Row} {ops : List (Write Key Row)}
    {next : Bool → Program Key Row (Except Raised RefundResponse)}
    (h : ∀ key, w.key ≠ .providerRefund key) : AsksCurrent env r (.transact (w :: ops) next) t := by
  rintro v - ⟨existing, hexecute⟩
  obtain ⟨hops, -⟩ := Program.transact.inj hexecute
  obtain ⟨rfl, -⟩ := List.cons.inj hops
  exact absurd rfl (h v.idempotencyKey)

theorem fail_aloneMeets : (v.fail env).run.AloneMeets (AsksCurrent env r) t :=
  ⟨fun _ => ⟨asksCurrent_of_ne fun _ => by simp [Write.put], trivial⟩, fun _ => trivial⟩

theorem record_aloneMeets {existing : BillingRow} :
    (v.record env existing).run.AloneMeets (AsksCurrent env r) t :=
  ⟨fun _ => ⟨asksCurrent_of_ne fun _ => by simp [Write.put],
    fun _ => ⟨asksCurrent_of_ne fun _ => by simp [Write.put], trivial⟩, fun _ => trivial⟩,
    fun _ => trivial⟩

theorem execute_aloneMeets {existing : BillingRow} (hchecked : r.checked = .ok v)
    (hbilling : t.row (.billing r.parentId) = some existing)
    (hnonneg : 0 ≤ amountValue existing.latestInvoice.amountRefunded)
    (hall : AllRecorded env t r.parentId) :
    (v.execute env existing).run.AloneMeets (AsksCurrent env r) t := by
  refine ⟨fun _ => ⟨fun v' hv' _ => ?_, record_aloneMeets⟩, fun _ => fail_aloneMeets⟩
  cases hchecked.symm.trans hv'
  exact ⟨existing, hbilling, rfl, hnonneg, hall⟩

theorem AllRecorded.reserve (h : AllRecorded env t parent) {digest : Sha256}
    (hnone : t.row (.refundIdempotency parent digest) = none) (row : RefundIdempotencyRow) :
    AllRecorded env (t.set (.refundIdempotency parent digest) (some row)) parent := by
  intro key refund hrefund hparent
  rw [Table.row_set_of_ne _ _ (by simp)] at hrefund
  obtain ⟨found, hfound, hstatus⟩ := h key refund hrefund hparent
  refine ⟨found, ?_, hstatus⟩
  rw [Table.row_set_of_ne _ _ fun he => ?_]
  · exact hfound
  · obtain ⟨-, hhash⟩ := Key.refundIdempotency.inj he
    rw [hhash, hnone] at hfound
    cases hfound

/-- A refund alone asks on the row that it has read. -/
theorem executeBillingRefund_aloneMeets (hall : AllRecorded env t r.parentId)
    (hnonneg : ∀ existing, t.row (.billing r.parentId) = some existing →
      0 ≤ amountValue existing.latestInvoice.amountRefunded) :
    (executeBillingRefund env r).run.AloneMeets (AsksCurrent env r) t := by
  refine RowStore.Handler.aloneMeets_readOnly_bind (requireParent_readOnly _) fun _ => ?_
  cases hchecked : r.checked with
  | error e => trivial
  | ok v =>
  have hparent := checked_parent hchecked
  refine RowStore.Handler.aloneMeets_get_bind ?_
  split
  · exact ((refundExecutionResponse_readOnly _).aloneMeets t).1
  refine RowStore.Handler.aloneMeets_readOnly_bind getPaymentRolloutItem_readOnly fun rollout => ?_
  split
  · trivial
  split
  · trivial
  refine RowStore.Handler.aloneMeets_get_bind ?_
  cases hready : v.readiness env (t.row (.billing v.request.parentId)) with
  | error e => trivial
  | ok existing =>
  obtain ⟨hbilling, -⟩ := readiness_ok hready
  refine ⟨fun ha => ⟨asksCurrent_of_ne fun _ => by simp [Write.put, Write.putNew],
    execute_aloneMeets hchecked ?_ (hnonneg _ (hparent ▸ hbilling)) ?_⟩, fun _ => trivial⟩
  · exact (Table.row_set_of_ne _ _ (by simp [Write.put, Write.putNew])).trans (hparent ▸ hbilling)
  · have hnone : t.row (.refundIdempotency v.request.parentId (env.keyHash v.idempotencyKey)) = none :=
      Option.isNone_iff_eq_none.mp (ha.2 _ (List.mem_cons_self ..))
    rw [← hparent] at hall ⊢
    exact hall.reserve hnone _

end

/-! ## Two operators -/

namespace RefundSample

def digests : RefundEnv :=
  ⟨fun key => if key = "key-one-1" then .ofDigit '1' isLowerHex_1 else .ofDigit '2' isLowerHex_2, fun _ => none⟩

def start : Table Key Row := Table.empty.apply [
  .putNew (.profile "parent") ⟨some "parent", some 1, some "student"⟩,
  .putNew (.billing "parent") {
    parentId := "parent"
    billingStatus := some "active"
    latestInvoice := { amountPaid := some 100, providerChargeId := some "charge" } }]

theorem start_noRefunds : NoRefunds start := fun key => by
  rw [start, Table.row_apply_of_notMem _ _ _ (by simp [Write.putNew, Write.put])]
  rfl

def refund (key : String) : RefundRequest where
  parentId := "parent"
  amount := 60
  reason := "asked"
  idempotencyKey := key
  user := ⟨some "admin", none, none⟩
  settings := ⟨true, false, ""⟩
  clock := 0
  now := "2026-03-01T00:00:00+00:00"
  failedAt := "2026-03-01T00:00:00+00:00"
  appliedAt := "2026-03-01T00:00:00+00:00"
  refundHex := key
  providerRefund := ⟨some key, none, none, none, none, none⟩
  cancelled := true

abbrev Run := State Key Row RefundRequest (Except Raised RefundResponse)

def service : Service Key Row RefundRequest (Except Raised RefundResponse) :=
  refundService digests .strongReads

def alone : Run := (State.initial start).solo service (refund "key-one-1") []

theorem alone_meeting : StepsMeeting service (AsksCurrent digests) (.initial start) alone := by
  refine StepsMeeting.solo .refl trivial (executeBillingRefund_aloneMeets ?_ ?_)
  · intro key refund hrefund
    cases (start_noRefunds key).symm.trans hrefund
  · intro existing hrow
    have hstored : start.row (.billing "parent") = some {
        parentId := "parent"
        billingStatus := some "active"
        latestInvoice := { amountPaid := some 100, providerChargeId := some "charge" } } := by
      decide +kernel
    cases hstored.symm.trans hrow
    decide

/-- The second operator reads, reserves and writes between the first one's read
of the billing row and its own request to the provider. -/
def both : Run :=
  ((((State.initial start).launch service (refund "key-one-1")).launch service
    (refund "key-two-2")).advance 0 4 |>.advance 1 20).advance 0 20

theorem both_reachable : Reachable service start both :=
  .trans (State.launch_steps trivial) (.trans (State.launch_steps trivial)
    (.trans (State.advance_steps 0 4 _) (.trans (State.advance_steps 1 20 _)
      (State.advance_steps 0 20 _))))

end RefundSample

theorem refunds_within_payment_sample :
    executed RefundSample.alone.table "parent" ≤
        max (paidAmount RefundSample.alone.table "parent") 0 ∧
      executed RefundSample.alone.table "parent" = 60 :=
  ⟨(refunds_within_payment RefundSample.start_noRefunds RefundSample.alone_meeting.steps).2
    RefundSample.alone_meeting "parent", by decide +kernel⟩

theorem refunds_exceed_payment : ∃ s, NoRefunds RefundSample.start ∧
    Reachable RefundSample.service RefundSample.start s ∧
      paidAmount s.table "parent" = 100 ∧ refundedAmount s.table "parent" = 60 ∧
        executed s.table "parent" = 120 :=
  ⟨RefundSample.both, RefundSample.start_noRefunds, RefundSample.both_reachable,
    by decide +kernel, by decide +kernel, by decide +kernel⟩

end Stoa.Subscription
