import Stoa.Verification.AskQuestion.Lifecycle
import Stoa.Store.Runs

/-! # The daily message quota

A command is charged in the transaction that puts it, and what it was charged is
given back in the one that rejects it. -/

namespace Stoa.AskQuestion

open RowStore

/-- The chat counter of an owner and a period. -/
def messagesCounted (t : Table Key Row) (owner period : String) : ℕ :=
  (t.row (.chatQuota owner period)).elim 0 ChatQuotaRow.count

def operationIn (owner period : String) : (k : Key) → Row k → ℕ
  | .chatQuotaOperation o _, operation => if o = owner ∧ operation.quotaPeriod = period then 1 else 0
  | _, _ => 0

/-- The number of charges that are stored for an owner and a period. -/
def quotaOperations (t : Table Key Row) (owner period : String) : ℕ :=
  t.total (operationIn owner period)

/-! ## One commit -/

/-- What a commit does to the commands and to the daily quota. -/
inductive CommandCall.QuotaChange (c : CommandCall) (t t' : Table Key Row) : Prop where
  /-- A command is put, and charged under the limit. -/
  | charged (r : ClaimCommand) (n : ℕ) (call : c = .claim r) (limited : n < r.limit)
      (absent : t.row (.command r.command.conversationId r.command.idempotencyKey) = none)
      (uncharged : t.row (.chatQuotaOperation r.command.ownerId r.command.commandId) = none)
      (expected : messagesCounted t r.command.ownerId r.command.quotaPeriod = n)
      (command : t'.row (.command r.command.conversationId r.command.idempotencyKey) = some (r.item n))
      (operation : t'.row (.chatQuotaOperation r.command.ownerId r.command.commandId) =
        some (r.quotaOperation n))
      (counted : messagesCounted t' r.command.ownerId r.command.quotaPeriod = n + 1)
      (others : t'.AgreesOn (fun k => IsQuotaRow k ∧
        k ≠ .command r.command.conversationId r.command.idempotencyKey ∧
        k ≠ .chatQuotaOperation r.command.ownerId r.command.commandId ∧
        k ≠ .chatQuota r.command.ownerId r.command.quotaPeriod) t)
  /-- A waiting command is rejected, and its charge is removed. -/
  | returned (call : ∀ r, c ≠ .claim r) (conversation key : String) (row row' : CommandRow)
      (operation : ChatQuotaOperationRow)
      (stored : t.row (.command conversation key) = some row)
      (waiting : row.status = .claimed)
      (charged : t.row (.chatQuotaOperation row.ownerId row.commandId) = some operation)
      (command : t'.row (.command conversation key) = some row')
      (same : row'.toCommandIdentity = row.toCommandIdentity)
      (rejected : row'.status = .rejected)
      (uncharged : t'.row (.chatQuotaOperation row.ownerId row.commandId) = none)
      (counted : messagesCounted t row.ownerId row.quotaPeriod =
        messagesCounted t' row.ownerId row.quotaPeriod + 1)
      (others : t'.AgreesOn (fun k => IsQuotaRow k ∧ k ≠ .command conversation key ∧
        k ≠ .chatQuotaOperation row.ownerId row.commandId ∧
        k ≠ .chatQuota row.ownerId row.quotaPeriod) t)
  /-- A command moves on otherwise. -/
  | moved (call : ∀ r, c ≠ .claim r) (conversation key : String) (row row' : CommandRow)
      (stored : t.row (.command conversation key) = some row)
      (command : t'.row (.command conversation key) = some row')
      (same : row'.toCommandIdentity = row.toCommandIdentity)
      (rejected : row'.status = .rejected ↔ row.status = .rejected)
      (others : t'.AgreesOn (fun k => IsQuotaRow k ∧ k ≠ .command conversation key) t)

/-! ## The invariant -/

structure Charged (t : Table Key Row) : Prop where
  /-- Every command that is not rejected has its charge. -/
  charged : ∀ conversation key row, t.row (.command conversation key) = some row →
    row.status ≠ .rejected → ∃ operation,
      t.row (.chatQuotaOperation row.ownerId row.commandId) = some operation ∧
        operation.quotaPeriod = row.quotaPeriod
  /-- No two of them share one. -/
  distinct : ∀ conversation key row conversation' key' row',
    t.row (.command conversation key) = some row → row.status ≠ .rejected →
    t.row (.command conversation' key') = some row' → row'.status ≠ .rejected →
    row.ownerId = row'.ownerId → row.commandId = row'.commandId →
    conversation = conversation' ∧ key = key'
  /-- Every charge is of a command that is not rejected. -/
  owned : ∀ owner id operation, t.row (.chatQuotaOperation owner id) = some operation →
    ∃ conversation key row, t.row (.command conversation key) = some row ∧
      row.status ≠ .rejected ∧ row.ownerId = owner ∧ row.commandId = id ∧
      row.quotaPeriod = operation.quotaPeriod
  counted : ∀ owner period, messagesCounted t owner period = quotaOperations t owner period

/-- Commands stay, with what they said when they were claimed. -/
def CommandsStay (t u : Table Key Row) : Prop :=
  ∀ conversation key row, t.row (.command conversation key) = some row →
    ∃ row', u.row (.command conversation key) = some row' ∧
      row'.toCommandIdentity = row.toCommandIdentity

theorem CommandsStay.refl (t : Table Key Row) : CommandsStay t t :=
  fun _ _ row hrow => ⟨row, hrow, rfl⟩

theorem CommandsStay.trans {t u v : Table Key Row} (h : CommandsStay t u) (h' : CommandsStay u v) :
    CommandsStay t v := by
  intro conversation key row hrow
  obtain ⟨row', hrow', hsame⟩ := h conversation key row hrow
  obtain ⟨row'', hrow'', hsame'⟩ := h' conversation key row' hrow'
  exact ⟨row'', hrow'', hsame'.trans hsame⟩

theorem CommandsStay.of_agree {t u : Table Key Row} (h : u.AgreesOn IsQuotaRow t) :
    CommandsStay t u :=
  fun conversation key row hrow => ⟨row, (h (.command conversation key) trivial).trans hrow, rfl⟩

section

variable {c : CommandCall} {t t' : Table Key Row}

theorem operationIn_eq_zero_of_ne {owner period : String} (k : Key) (item : Row k)
    (h : ¬ ∃ o id, k = .chatQuotaOperation o id) : operationIn owner period k item = 0 := by
  cases k with
  | chatQuotaOperation o id => exact absurd ⟨o, id, rfl⟩ h
  | _ => rfl

theorem quotaOperations_congr {owner period : String}
    (h : ∀ o id, t'.row (.chatQuotaOperation o id) = t.row (.chatQuotaOperation o id)) :
    quotaOperations t' owner period = quotaOperations t owner period := by
  refine Table.AgreesOn.total (P := fun k => ∃ o id, k = .chatQuotaOperation o id) ?_
    operationIn_eq_zero_of_ne
  rintro k ⟨o, id, rfl⟩
  exact h o id

/-- Where the rows of the quota agree, so do the counter and the charges. -/
theorem Charged.agree (h : Charged t) (ha : t'.AgreesOn IsQuotaRow t) : Charged t' where
  charged := fun conversation key row hrow hs => by
    rw [ha (.chatQuotaOperation row.ownerId row.commandId) trivial]
    exact h.charged conversation key row ((ha (.command conversation key) trivial).symm.trans hrow) hs
  distinct := fun conversation key row conversation' key' row' hrow hs hrow' hs' =>
    h.distinct conversation key row conversation' key' row'
      ((ha (.command conversation key) trivial).symm.trans hrow) hs
      ((ha (.command conversation' key') trivial).symm.trans hrow') hs'
  owned := fun owner id operation hop => by
    obtain ⟨conversation, key, row, hrow, hrest⟩ := h.owned owner id operation
      ((ha (.chatQuotaOperation owner id) trivial).symm.trans hop)
    exact ⟨conversation, key, row, (ha (.command conversation key) trivial).trans hrow, hrest⟩
  counted := fun owner period => by
    rw [messagesCounted, ha (.chatQuota owner period) trivial,
      quotaOperations_congr fun o id => ha (.chatQuotaOperation o id) trivial]
    exact h.counted owner period

/-- Nothing is charged where no row of the quota is. -/
theorem Charged.of_fresh (h : ∀ k, IsQuotaRow k → t.row k = none) : Charged t where
  charged conversation key row hrow := by simp [h (.command conversation key) trivial] at hrow
  distinct conversation key row _ _ _ hrow := by simp [h (.command conversation key) trivial] at hrow
  owned owner id operation hop := by simp [h (.chatQuotaOperation owner id) trivial] at hop
  counted owner period := by
    rw [messagesCounted, h (.chatQuota owner period) trivial]
    refine (Table.total_eq_zero t _ fun k item hk => ?_).symm
    cases k with
    | chatQuotaOperation o id => simp [h (.chatQuotaOperation o id) trivial] at hk
    | _ => rfl

theorem CommandCall.QuotaChange.stay (h : c.QuotaChange t t') : CommandsStay t t' := by
  intro conversation key row hrow
  cases h with
  | charged r n call limited absent uncharged expected command operation counted others =>
      have hkey : Key.command conversation key ≠
          .command r.command.conversationId r.command.idempotencyKey := fun he => by
        cases he
        cases absent.symm.trans hrow
      exact ⟨row, (others (.command conversation key) ⟨trivial, hkey, by simp, by simp⟩).trans hrow, rfl⟩
  | returned call conversation' key' stored row' operation hstored waiting charged command same rejected
      uncharged counted others =>
      by_cases hkey : Key.command conversation key = .command conversation' key'
      · cases hkey
        cases hstored.symm.trans hrow
        exact ⟨row', command, same⟩
      · exact ⟨row, (others (.command conversation key) ⟨trivial, hkey, by simp, by simp⟩).trans hrow, rfl⟩
  | moved call conversation' key' stored row' hstored command same rejected others =>
      by_cases hkey : Key.command conversation key = .command conversation' key'
      · cases hkey
        cases hstored.symm.trans hrow
        exact ⟨row', command, same⟩
      · exact ⟨row, (others (.command conversation key) ⟨trivial, hkey⟩).trans hrow, rfl⟩

/-- One charge is stored or removed. -/
theorem quotaOperations_of_ne {o id : String}
    (h : ∀ o' id', Key.chatQuotaOperation o' id' ≠ .chatQuotaOperation o id →
      t'.row (.chatQuotaOperation o' id') = t.row (.chatQuotaOperation o' id'))
    (owner period : String) : quotaOperations t' owner period +
        (t.row (.chatQuotaOperation o id)).elim 0 (operationIn owner period (.chatQuotaOperation o id)) =
      quotaOperations t owner period +
        (t'.row (.chatQuotaOperation o id)).elim 0 (operationIn owner period (.chatQuotaOperation o id)) := by
  refine Table.AgreesOn.total_of_ne (P := fun k => ∃ o' id', k = .chatQuotaOperation o' id') ?_
    operationIn_eq_zero_of_ne
  rintro k ⟨⟨o', id', rfl⟩, hne⟩
  exact h o' id' hne

theorem messagesCounted_congr {owner period : String}
    (h : t'.row (.chatQuota owner period) = t.row (.chatQuota owner period)) :
    messagesCounted t' owner period = messagesCounted t owner period := by
  rw [messagesCounted, h, messagesCounted]

/-- What a charge counts, in its period and in others. -/
theorem elim_operationIn {o id p : String} {item : Option (Row (.chatQuotaOperation o id))}
    (h : ∀ operation, item = some operation → operation.quotaPeriod = p) (owner period : String) :
    item.elim 0 (operationIn owner period (.chatQuotaOperation o id)) =
      if o = owner ∧ p = period then item.isSome.toNat else 0 := by
  cases item with
  | none => simp
  | some operation => simp [operationIn, h operation rfl]

/-- The counter and the charges of one owner and period move together. -/
theorem counted_of_charge {o id p : String}
    (hcounted : ∀ owner period, messagesCounted t owner period = quotaOperations t owner period)
    (hothers : ∀ o' id', Key.chatQuotaOperation o' id' ≠ .chatQuotaOperation o id →
      t'.row (.chatQuotaOperation o' id') = t.row (.chatQuotaOperation o' id'))
    (hcounters : ∀ owner period, Key.chatQuota owner period ≠ .chatQuota o p →
      t'.row (.chatQuota owner period) = t.row (.chatQuota owner period))
    (hbefore : ∀ operation, t.row (.chatQuotaOperation o id) = some operation →
      operation.quotaPeriod = p)
    (hafter : ∀ operation, t'.row (.chatQuotaOperation o id) = some operation →
      operation.quotaPeriod = p)
    (hmoved : messagesCounted t' o p + (t.row (.chatQuotaOperation o id)).isSome.toNat =
      messagesCounted t o p + (t'.row (.chatQuotaOperation o id)).isSome.toNat)
    (owner period : String) : messagesCounted t' owner period = quotaOperations t' owner period := by
  have htotal := quotaOperations_of_ne hothers owner period
  rw [elim_operationIn hbefore, elim_operationIn hafter] at htotal
  have hold := hcounted owner period
  by_cases hkey : o = owner ∧ p = period
  · obtain ⟨rfl, rfl⟩ := hkey
    simp only [and_self, if_true] at htotal
    omega
  · have hne : Key.chatQuota owner period ≠ .chatQuota o p := fun he => by
      cases he
      exact hkey ⟨rfl, rfl⟩
    have hcounter := messagesCounted_congr (hcounters owner period hne)
    simp only [hkey, if_false] at htotal
    omega

/-- A command is put with its charge. -/
theorem Charged.charge (hc : Charged t) {r : ClaimCommand} {n : ℕ}
    (absent : t.row (.command r.command.conversationId r.command.idempotencyKey) = none)
    (uncharged : t.row (.chatQuotaOperation r.command.ownerId r.command.commandId) = none)
    (expected : messagesCounted t r.command.ownerId r.command.quotaPeriod = n)
    (command : t'.row (.command r.command.conversationId r.command.idempotencyKey) = some (r.item n))
    (operation : t'.row (.chatQuotaOperation r.command.ownerId r.command.commandId) =
      some (r.quotaOperation n))
    (counted : messagesCounted t' r.command.ownerId r.command.quotaPeriod = n + 1)
    (others : t'.AgreesOn (fun k => IsQuotaRow k ∧
      k ≠ .command r.command.conversationId r.command.idempotencyKey ∧
      k ≠ .chatQuotaOperation r.command.ownerId r.command.commandId ∧
      k ≠ .chatQuota r.command.ownerId r.command.quotaPeriod) t) : Charged t' := by
  have hcommand : ∀ conversation key row, t'.row (.command conversation key) = some row →
      (conversation = r.command.conversationId ∧ key = r.command.idempotencyKey ∧ row = r.item n) ∨
        t.row (.command conversation key) = some row := by
    intro conversation key row hrow
    by_cases hkey : Key.command conversation key =
        .command r.command.conversationId r.command.idempotencyKey
    · cases hkey
      cases command.symm.trans hrow
      exact .inl ⟨rfl, rfl, rfl⟩
    · exact .inr ((others (.command conversation key) ⟨trivial, hkey, by simp, by simp⟩).symm.trans hrow)
  have hoperation : ∀ owner id,
      Key.chatQuotaOperation owner id ≠ .chatQuotaOperation r.command.ownerId r.command.commandId →
      t'.row (.chatQuotaOperation owner id) = t.row (.chatQuotaOperation owner id) :=
    fun owner id hne => others (.chatQuotaOperation owner id) ⟨trivial, by simp, hne, by simp⟩
  -- A stored command that is charged is charged under another id.
  have hother : ∀ conversation key row, t.row (.command conversation key) = some row →
      row.status ≠ .rejected → Key.chatQuotaOperation row.ownerId row.commandId ≠
        .chatQuotaOperation r.command.ownerId r.command.commandId := by
    intro conversation key row hrow hs he
    obtain ⟨op, hop, -⟩ := hc.charged conversation key row hrow hs
    have hsome : (t.row (.chatQuotaOperation row.ownerId row.commandId)).isSome := by rw [hop]; rfl
    rw [he, uncharged] at hsome
    cases hsome
  constructor
  · intro conversation key row hrow hs
    rcases hcommand conversation key row hrow with ⟨rfl, rfl, rfl⟩ | hrow
    · exact ⟨_, operation, rfl⟩
    · rw [hoperation _ _ (hother conversation key row hrow hs)]
      exact hc.charged conversation key row hrow hs
  · intro conversation key row conversation' key' row' hrow hs hrow' hs' howner hid
    rcases hcommand conversation key row hrow with ⟨rfl, rfl, rfl⟩ | hrow <;>
      rcases hcommand conversation' key' row' hrow' with ⟨rfl, rfl, rfl⟩ | hrow'
    · exact ⟨rfl, rfl⟩
    · exact absurd (by rw [← howner, ← hid]; rfl) (hother conversation' key' row' hrow' hs')
    · exact absurd (by rw [howner, hid]; rfl) (hother conversation key row hrow hs)
    · exact hc.distinct conversation key row conversation' key' row' hrow hs hrow' hs' howner hid
  · intro owner id op hop
    by_cases hkey : Key.chatQuotaOperation owner id =
        .chatQuotaOperation r.command.ownerId r.command.commandId
    · cases hkey
      cases operation.symm.trans hop
      exact ⟨_, _, _, command, by simp [ClaimCommand.item], rfl, rfl, rfl⟩
    · obtain ⟨conversation, key, row, hrow, hrest⟩ :=
        hc.owned owner id op ((hoperation owner id hkey).symm.trans hop)
      have hne : Key.command conversation key ≠
          .command r.command.conversationId r.command.idempotencyKey := fun he => by
        cases he
        cases absent.symm.trans hrow
      exact ⟨conversation, key, row,
        (others (.command conversation key) ⟨trivial, hne, by simp, by simp⟩).trans hrow, hrest⟩
  · refine counted_of_charge hc.counted hoperation
      (fun owner period hne => others (.chatQuota owner period) ⟨trivial, by simp, by simp, hne⟩) ?_ ?_ ?_
    · exact fun op hop => by cases uncharged.symm.trans hop
    · intro op hop
      cases operation.symm.trans hop
      rfl
    · rw [uncharged, operation, counted, expected]
      rfl

/-- A command is rejected, and its charge removed. -/
theorem Charged.giveBack (hc : Charged t) {conversation key : String} {row row' : CommandRow}
    (stored : t.row (.command conversation key) = some row) (waiting : row.status ≠ .rejected)
    (command : t'.row (.command conversation key) = some row')
    (rejected : row'.status = .rejected)
    (uncharged : t'.row (.chatQuotaOperation row.ownerId row.commandId) = none)
    (counted : messagesCounted t row.ownerId row.quotaPeriod =
      messagesCounted t' row.ownerId row.quotaPeriod + 1)
    (others : t'.AgreesOn (fun k => IsQuotaRow k ∧ k ≠ .command conversation key ∧
      k ≠ .chatQuotaOperation row.ownerId row.commandId ∧
      k ≠ .chatQuota row.ownerId row.quotaPeriod) t) : Charged t' := by
  have hcommand : ∀ conversation' key' row'', t'.row (.command conversation' key') = some row'' →
      row''.status ≠ .rejected → Key.command conversation' key' ≠ .command conversation key ∧
        t.row (.command conversation' key') = some row'' := by
    intro conversation' key' row'' hrow hs
    by_cases hkey : Key.command conversation' key' = .command conversation key
    · cases hkey
      cases command.symm.trans hrow
      exact absurd rejected hs
    · exact ⟨hkey,
        (others (.command conversation' key') ⟨trivial, hkey, by simp, by simp⟩).symm.trans hrow⟩
  have hoperation : ∀ owner id,
      Key.chatQuotaOperation owner id ≠ .chatQuotaOperation row.ownerId row.commandId →
      t'.row (.chatQuotaOperation owner id) = t.row (.chatQuotaOperation owner id) :=
    fun owner id hne => others (.chatQuotaOperation owner id) ⟨trivial, by simp, hne, by simp⟩
  obtain ⟨operation, charged, hperiod⟩ := hc.charged conversation key row stored waiting
  constructor
  · intro conversation' key' row'' hrow hs
    obtain ⟨hkey, hrow⟩ := hcommand conversation' key' row'' hrow hs
    rw [hoperation]
    · exact hc.charged conversation' key' row'' hrow hs
    · intro he
      obtain ⟨howner, hid⟩ := Key.chatQuotaOperation.inj he
      obtain ⟨rfl, rfl⟩ := hc.distinct conversation' key' row'' conversation key row hrow hs stored
        waiting howner hid
      exact hkey rfl
  · intro conversation₁ key₁ row₁ conversation₂ key₂ row₂ hrow₁ hs₁ hrow₂ hs₂
    exact hc.distinct conversation₁ key₁ row₁ conversation₂ key₂ row₂
      (hcommand conversation₁ key₁ row₁ hrow₁ hs₁).2 hs₁ (hcommand conversation₂ key₂ row₂ hrow₂ hs₂).2 hs₂
  · intro owner id op hop
    by_cases hkey : Key.chatQuotaOperation owner id =
        .chatQuotaOperation row.ownerId row.commandId
    · cases hkey
      cases uncharged.symm.trans hop
    · obtain ⟨conversation', key', row'', hrow, hs, howner, hid, hp⟩ :=
        hc.owned owner id op ((hoperation owner id hkey).symm.trans hop)
      have hne : Key.command conversation' key' ≠ .command conversation key := fun he => by
        cases he
        cases stored.symm.trans hrow
        exact hkey (by rw [howner, hid])
      exact ⟨conversation', key', row'',
        (others (.command conversation' key') ⟨trivial, hne, by simp, by simp⟩).trans hrow,
        hs, howner, hid, hp⟩
  · refine counted_of_charge hc.counted hoperation
      (fun owner period hne => others (.chatQuota owner period) ⟨trivial, by simp, by simp, hne⟩) ?_ ?_ ?_
    · intro op hop
      cases charged.symm.trans hop
      exact hperiod
    · exact fun op hop => by cases uncharged.symm.trans hop
    · rw [charged, uncharged, counted]
      rfl

/-- A command that moves on otherwise is charged as before. -/
theorem Charged.move (hc : Charged t) {conversation key : String} {row row' : CommandRow}
    (stored : t.row (.command conversation key) = some row)
    (command : t'.row (.command conversation key) = some row')
    (same : row'.toCommandIdentity = row.toCommandIdentity)
    (rejected : row'.status = .rejected ↔ row.status = .rejected)
    (others : t'.AgreesOn (fun k => IsQuotaRow k ∧ k ≠ .command conversation key) t) : Charged t' := by
  -- What is stored now has the identity of what was stored.
  have hcommand : ∀ conversation' key' row'', t'.row (.command conversation' key') = some row'' →
      ∃ before, t.row (.command conversation' key') = some before ∧
        before.toCommandIdentity = row''.toCommandIdentity ∧
        (row''.status ≠ .rejected → before.status ≠ .rejected) := by
    intro conversation' key' row'' hrow
    by_cases hkey : Key.command conversation' key' = .command conversation key
    · cases hkey
      cases command.symm.trans hrow
      exact ⟨row, stored, same.symm, fun hs he => hs (rejected.mpr he)⟩
    · exact ⟨row'', (others (.command conversation' key') ⟨trivial, hkey⟩).symm.trans hrow, rfl, id⟩
  have hoperation : ∀ owner id,
      t'.row (.chatQuotaOperation owner id) = t.row (.chatQuotaOperation owner id) :=
    fun owner id => others (.chatQuotaOperation owner id) ⟨trivial, by simp⟩
  constructor
  · intro conversation' key' row'' hrow hs
    obtain ⟨before, hbefore, hsame, hs'⟩ := hcommand conversation' key' row'' hrow
    rw [hoperation, ← hsame]
    exact hc.charged conversation' key' before hbefore (hs' hs)
  · intro conversation₁ key₁ row₁ conversation₂ key₂ row₂ hrow₁ hs₁ hrow₂ hs₂ howner hid
    obtain ⟨before₁, hbefore₁, hsame₁, hs₁'⟩ := hcommand conversation₁ key₁ row₁ hrow₁
    obtain ⟨before₂, hbefore₂, hsame₂, hs₂'⟩ := hcommand conversation₂ key₂ row₂ hrow₂
    rw [← hsame₁, ← hsame₂] at howner hid
    exact hc.distinct _ _ before₁ _ _ before₂ hbefore₁ (hs₁' hs₁) hbefore₂ (hs₂' hs₂) howner hid
  · intro owner id op hop
    obtain ⟨conversation', key', before, hbefore, hs, howner, hid, hp⟩ :=
      hc.owned owner id op ((hoperation owner id).symm.trans hop)
    by_cases hkey : Key.command conversation' key' = .command conversation key
    · cases hkey
      cases stored.symm.trans hbefore
      exact ⟨_, _, row', command, fun he => hs (rejected.mp he), by rw [same, howner],
        by rw [same, hid], by rw [same, hp]⟩
    · exact ⟨conversation', key', before,
        (others (.command conversation' key') ⟨trivial, hkey⟩).trans hbefore, hs, howner, hid, hp⟩
  · intro owner period
    rw [messagesCounted_congr (others (.chatQuota owner period) ⟨trivial, by simp⟩), hc.counted,
      quotaOperations_congr hoperation]

theorem CommandCall.QuotaChange.keepsCharged (h : c.QuotaChange t t') (hc : Charged t) :
    Charged t' := by
  cases h with
  | charged r n call limited absent uncharged expected command operation counted others =>
      exact hc.charge absent uncharged expected command operation counted others
  | returned call conversation key row row' operation stored waiting charged command same rejected
      uncharged counted others =>
      exact hc.giveBack stored (by simp [waiting]) command rejected uncharged counted others
  | moved call conversation key row row' stored command same rejected others =>
      exact hc.move stored command same rejected others

end

/-! ## The calls -/

def CommandCall.IsReject : CommandCall → Prop
  | .reject _ => True
  | _ => False

section

variable {c : CommandCall} {conversation key : String} {u : Update} {row : CommandRow}
  {t : Table Key Row}

theorem Moves.identity (h : Moves c conversation key u) :
    (u.change row).toCommandIdentity = row.toCommandIdentity := by
  cases h <;> rfl

theorem Moves.rejected_iff (h : Moves c conversation key u) (hreject : ¬ c.IsReject)
    (hc : u.condition row) : (u.change row).status = .rejected ↔ row.status = .rejected := by
  constructor
  · intro hs
    cases h with
    | reject r => exact absurd trivial hreject
    | invoke h nowEpoch _ => exact hs
    | keep h nowEpoch resultJson _ => exact hs
    | renew r => exact hs
    | closeFailure r => exact hs
    | settle r now => exact hs
    | _ => cases hs
  · intro hs
    rw [(h.follows hc).final (.inr hs), hs]

theorem ClaimCommand.quotaChange {r : ClaimCommand} {n : ℕ} (hlimit : n < r.limit)
    (ha : t.Admits (r.operations n)) :
    (CommandCall.claim r).QuotaChange t (t.apply (r.operations n)) := by
  have hrow : ∀ w ∈ r.operations n,
      (t.apply (r.operations n)).row w.key = w.action (t.row w.key) ∧ w.condition (t.row w.key) :=
    fun w hw => ⟨t.row_apply_of_mem ha.1 hw, ha.2 w hw⟩
  simp only [operations, List.forall_mem_cons] at hrow
  obtain ⟨-, ⟨hcommand, habsent⟩, ⟨hoperation, huncharged⟩, ⟨hcounter, hexpected⟩, -⟩ := hrow
  refine .charged r n rfl hlimit (Option.isNone_iff_eq_none.mp habsent)
    (Option.isNone_iff_eq_none.mp huncharged) ?_ hcommand hoperation ?_ ?_
  · unfold messagesCounted
    dsimp only [Write.update] at hexpected
    cases hquota : t.row (.chatQuota r.command.ownerId r.command.quotaPeriod) with
    | none =>
        rw [hquota] at hexpected
        simpa [eq_comm] using hexpected
    | some counter =>
        rw [hquota] at hexpected
        simpa using hexpected
  · have hmessages := congrArg (fun item => Option.elim item 0 ChatQuotaRow.count) hcounter
    exact hmessages
  · refine Table.AgreesOn.apply_outside t fun w hw => ?_
    simp only [operations, List.mem_cons, List.not_mem_nil, or_false] at hw
    rcases hw with rfl | rfl | rfl | rfl
    · exact fun hpart => hpart.1
    · exact fun hpart => hpart.2.1 rfl
    · exact fun hpart => hpart.2.2.1 rfl
    · exact fun hpart => hpart.2.2.2 rfl

/-- The rejection of a command whose identity is the one that was read. -/
theorem RejectCommand.quotaChange {r : RejectCommand} {command stored : CommandRow}
    (hstored : t.row (.command r.conversationId r.idempotencyKey) = some stored)
    (hsame : stored.toCommandIdentity = command.toCommandIdentity)
    (ha : t.Admits (r.operations command)) :
    (CommandCall.reject r).QuotaChange t (t.apply (r.operations command)) := by
  have hops : r.operations command = r.operations stored := by
    unfold operations
    rw [hsame]
  rw [hops] at ha ⊢
  have hcondition : r.update.condition stored := by
    have hwaiting : Option.any r.update.condition
        (t.row (.command r.conversationId r.idempotencyKey)) = true := ha.2 _ (List.mem_cons_self ..)
    rwa [hstored] at hwaiting
  obtain ⟨howner, -, hclaimed⟩ := of_decide_eq_true hcondition
  cases r with
  | mk conversation key owner fingerprint errorCode now =>
      subst howner
      have hrow : ∀ w ∈ operations ⟨conversation, key, stored.ownerId, fingerprint, errorCode, now⟩ stored,
          (t.apply _).row w.key = w.action (t.row w.key) ∧ w.condition (t.row w.key) :=
        fun w hw => ⟨t.row_apply_of_mem ha.1 hw, ha.2 w hw⟩
      simp only [operations, List.forall_mem_cons] at hrow
      obtain ⟨⟨hcommand, -⟩, ⟨hoperation, hcharged⟩, ⟨hcounter, hexpected⟩, -⟩ := hrow
      obtain ⟨operation, hcharged, -⟩ := (Option.any_eq_true _ _).mp hcharged
      obtain ⟨counter, hquota, hcount⟩ := (Option.any_eq_true _ _).mp hexpected
      refine .returned (fun _ h => by cases h) conversation key stored _ operation hstored hclaimed hcharged
        (hcommand.trans (congrArg (Option.map _) hstored)) rfl rfl hoperation ?_ ?_
      · have hafter : messagesCounted (t.apply (operations _ stored)) stored.ownerId stored.quotaPeriod =
            counter.count - 1 :=
          congrArg (fun item => Option.elim item 0 ChatQuotaRow.count)
            (hcounter.trans (congrArg (Option.map _) hquota))
        have hbefore : messagesCounted t stored.ownerId stored.quotaPeriod = counter.count :=
          congrArg (fun item => Option.elim item 0 ChatQuotaRow.count) hquota
        have hpos := (of_decide_eq_true hcount).2
        omega
      · refine Table.AgreesOn.apply_outside t fun w hw => ?_
        simp only [operations, List.mem_cons, List.not_mem_nil, or_false] at hw
        rcases hw with rfl | rfl | rfl
        · exact fun hpart => hpart.2.1 rfl
        · exact fun hpart => hpart.2.2.1 rfl
        · exact fun hpart => hpart.2.2.2 rfl

theorem CommandCall.Transaction.quotaChange {ops : List (Write Key Row)} (h : c.Transaction ops)
    (hreject : ¬ c.IsReject) (ha : t.Admits ops) : c.QuotaChange t (t.apply ops) := by
  cases h with
  | created r n limited => exact ClaimCommand.quotaChange limited ha
  | @updated _ conversation key u _ moves contains =>
      obtain ⟨row, hrow, hcond⟩ := (Option.any_eq_true _ _).mp (ha.2 _ contains.mem)
      refine .moved (fun _ h => by cases h; cases moves) conversation key row (u.change row) hrow ?_ moves.identity
        (moves.rejected_iff hreject hcond) (Table.AgreesOn.apply_outside t fun w hw hpart => ?_)
      · exact (t.row_apply_of_mem ha.1 contains.mem).trans (congrArg (Option.map u.change) hrow)
      · rcases contains.others w hw with rfl | hother
        · exact hpart.2 rfl
        · exact hother hpart.1
  | rejected r command => exact absurd trivial hreject

end

/-! ## Every run -/

def quotaContract (faults : Faults) : Contract (quotaService faults) where
  Inv := Charged
  Rely := CommandsStay
  refl := CommandsStay.refl
  trans := CommandsStay.trans
  Move := fun c t t' => c.QuotaChange t t'
  move_inv := fun h hc => hc.keepsCharged h
  move_rely := fun _ hc => hc.stay
  drift_inv := fun h hd => h.agree hd
  drift_rely := fun _ hd => .of_agree hd

section

variable {faults : Faults} {t : Table Key Row} {own : List (Table Key Row × Table Key Row)}

/-- The state of a command that waits is read off a stored row. -/
theorem eq_some_of_claimed {command : Option CommandRow} {owner fingerprint : String} {nowEpoch : ℕ}
    {row : CommandRow}
    (h : (classifyMessageCommand command owner fingerprint nowEpoch).command = some row) :
    command = some row := by
  unfold classifyMessageCommand at h
  split at h
  · cases h
  · split at h
    · cases h
    · split at h
      · exact h
      · split at h <;> exact h

theorem rejectMessageCommandAndCompensate_safe (r : RejectCommand) :
    (rejectMessageCommandAndCompensate r).run.Safe faults (quotaContract faults).toInterference
      (CommandCall.reject r).QuotaChange (fun _ _ _ => True) own t := by
  refine (Program.safe_bind _ _ own t).mpr (Program.Safe.mono (Q := fun _ _ _ => True)
    (RowStore.Handler.safe_get_bind fun u _ _ => ⟨?_, trivial⟩) (fun _ _ _ h => h) fun a _ _ _ => ?_)
  · dsimp only
    split
    · rename_i command _ hcommand
      have hread := eq_some_of_claimed hcommand
      refine RowStore.Handler.safe_submit_bind (fun v _ _ => ?_) fun v hr _ ha => ?_
      · exact Program.ReadOnly.safe (RowStore.Handler.readOnly_bind RowStore.Handler.readOnly_get
          fun reread => by dsimp only; split <;> trivial)
      · obtain ⟨stored, hstored, hsame⟩ := hr r.conversationId r.idempotencyKey command hread
        refine ⟨RejectCommand.quotaChange hstored hsame ha, trivial, ?_⟩
        exact Program.ReadOnly.safe (RowStore.Handler.readOnly_bind RowStore.Handler.readOnly_get
          fun reread => by dsimp only; split <;> trivial)
    · trivial
  · cases a <;> trivial

theorem CommandCall.quota_safe (c : CommandCall) : c.handler.run.Safe faults
    (quotaContract faults).toInterference c.QuotaChange (fun _ _ _ => True) own t := by
  by_cases hreject : c.IsReject
  · cases c with
    | reject r =>
        refine (Program.safe_bind _ _ own t).mpr ((rejectMessageCommandAndCompensate_safe r).mono
          (fun _ _ _ h => h) fun a _ _ _ => ?_)
        cases a <;> trivial
    | _ => exact hreject.elim
  · exact c.submits.safe fun ops u hops _ ha => hops.quotaChange hreject ha

end

/-- What one commit does to the daily quota. -/
structure QuotaEntry (e : Commit Key Row CommandCall) : Prop where
  /-- A command that is put is charged, once. -/
  created : ∀ conversation key row, e.before.row (.command conversation key) = none →
    e.after.row (.command conversation key) = some row → row.status = .claimed ∧
      e.before.row (.chatQuotaOperation row.ownerId row.commandId) = none ∧
      (e.after.row (.chatQuotaOperation row.ownerId row.commandId)).isSome ∧
      messagesCounted e.after row.ownerId row.quotaPeriod =
        messagesCounted e.before row.ownerId row.quotaPeriod + 1
  /-- A command that becomes rejected is given its charge back. -/
  rejected : ∀ conversation key row row', e.before.row (.command conversation key) = some row →
    e.after.row (.command conversation key) = some row' → row.status ≠ .rejected →
    row'.status = .rejected →
      (e.before.row (.chatQuotaOperation row.ownerId row.commandId)).isSome ∧
      e.after.row (.chatQuotaOperation row.ownerId row.commandId) = none ∧
      messagesCounted e.before row.ownerId row.quotaPeriod =
        messagesCounted e.after row.ownerId row.quotaPeriod + 1
  /-- Commands stay, and a rejected one stays rejected. -/
  stays : ∀ conversation key row, e.before.row (.command conversation key) = some row →
    ∃ row', e.after.row (.command conversation key) = some row' ∧
      row'.toCommandIdentity = row.toCommandIdentity ∧
      (row.status = .rejected → row'.status = .rejected)
  /-- Nothing else is charged or given back. -/
  otherwise : ∀ owner period id,
    (∀ conversation key row, e.before.row (.command conversation key) = none →
      e.after.row (.command conversation key) = some row →
      ¬ (row.ownerId = owner ∧ (row.quotaPeriod = period ∨ row.commandId = id))) →
    (∀ conversation key row row', e.before.row (.command conversation key) = some row →
      e.after.row (.command conversation key) = some row' → row.status ≠ .rejected →
      row'.status = .rejected →
      ¬ (row.ownerId = owner ∧ (row.quotaPeriod = period ∨ row.commandId = id))) →
    messagesCounted e.after owner period = messagesCounted e.before owner period ∧
      e.after.row (.chatQuotaOperation owner id) = e.before.row (.chatQuotaOperation owner id)
  /-- A claim leaves the counter within its limit. -/
  limited : ∀ r, e.call = .claim r →
    messagesCounted e.after r.command.ownerId r.command.quotaPeriod ≤ r.limit

theorem CommandCall.QuotaChange.entry {e : Commit Key Row CommandCall}
    (h : e.call.QuotaChange e.before e.after) : QuotaEntry e := by
  cases h with
  | charged r n call limited absent uncharged expected command operation counted others =>
      have hcommand : ∀ conversation key row, e.before.row (.command conversation key) = some row →
          e.after.row (.command conversation key) = some row := by
        intro conversation key row hrow
        have hkey : Key.command conversation key ≠
            .command r.command.conversationId r.command.idempotencyKey := fun he => by
          cases he
          cases absent.symm.trans hrow
        exact (others (.command conversation key) ⟨trivial, hkey, by simp, by simp⟩).trans hrow
      refine ⟨?_, ?_, ?_, ?_, ?_⟩
      · intro conversation key row hrow hrow'
        by_cases hkey : Key.command conversation key =
            .command r.command.conversationId r.command.idempotencyKey
        · cases hkey
          cases command.symm.trans hrow'
          exact ⟨rfl, uncharged, Option.isSome_iff_exists.mpr ⟨_, operation⟩,
            counted.trans (congrArg (· + 1) expected.symm)⟩
        · have hsame := others (.command conversation key) ⟨trivial, hkey, by simp, by simp⟩
          cases hrow.symm.trans (hsame.symm.trans hrow')
      · intro conversation key row row' hrow hrow' hs hs'
        cases (hcommand conversation key row hrow).symm.trans hrow'
        exact absurd hs' hs
      · exact fun conversation key row hrow => ⟨row, hcommand conversation key row hrow, rfl, id⟩
      · intro owner period id hcreated _
        have hne := hcreated _ _ _ absent command
        refine ⟨messagesCounted_congr (others (.chatQuota owner period) ⟨trivial, by simp, by simp, ?_⟩),
          others (.chatQuotaOperation owner id) ⟨trivial, by simp, ?_, by simp⟩⟩
        · exact fun he => by cases he; exact hne ⟨rfl, .inl rfl⟩
        · exact fun he => by cases he; exact hne ⟨rfl, .inr rfl⟩
      · intro r' hr'
        cases call.symm.trans hr'
        omega
  | returned call conversation key row row' operation stored waiting charged command same rejected
      uncharged counted others =>
      have hcommand : ∀ conversation' key', Key.command conversation' key' ≠ .command conversation key →
          e.after.row (.command conversation' key') = e.before.row (.command conversation' key') :=
        fun conversation' key' hkey =>
          others (.command conversation' key') ⟨trivial, hkey, by simp, by simp⟩
      refine ⟨?_, ?_, ?_, ?_, fun r hr => absurd hr (call r)⟩
      · intro conversation' key' row'' hrow hrow'
        by_cases hkey : Key.command conversation' key' = .command conversation key
        · cases hkey
          cases stored.symm.trans hrow
        · cases hrow.symm.trans ((hcommand conversation' key' hkey).symm.trans hrow')
      · intro conversation' key' before after hrow hrow' hs hs'
        by_cases hkey : Key.command conversation' key' = .command conversation key
        · cases hkey
          cases stored.symm.trans hrow
          exact ⟨Option.isSome_iff_exists.mpr ⟨_, charged⟩, uncharged, counted⟩
        · cases ((hcommand conversation' key' hkey).trans hrow).symm.trans hrow'
          exact absurd hs' hs
      · intro conversation' key' before hrow
        by_cases hkey : Key.command conversation' key' = .command conversation key
        · cases hkey
          cases stored.symm.trans hrow
          exact ⟨row', command, same, fun _ => rejected⟩
        · exact ⟨before, (hcommand conversation' key' hkey).trans hrow, rfl, id⟩
      · intro owner period id _ hrejected
        have hne := hrejected _ _ _ _ stored command (by simp [waiting]) rejected
        refine ⟨messagesCounted_congr (others (.chatQuota owner period) ⟨trivial, by simp, by simp, ?_⟩),
          others (.chatQuotaOperation owner id) ⟨trivial, by simp, ?_, by simp⟩⟩
        · exact fun he => by cases he; exact hne ⟨rfl, .inl rfl⟩
        · exact fun he => by cases he; exact hne ⟨rfl, .inr rfl⟩
  | moved call conversation key row row' stored command same rejected others =>
      have hcommand : ∀ conversation' key', Key.command conversation' key' ≠ .command conversation key →
          e.after.row (.command conversation' key') = e.before.row (.command conversation' key') :=
        fun conversation' key' hkey => others (.command conversation' key') ⟨trivial, hkey⟩
      refine ⟨?_, ?_, ?_, ?_, fun r hr => absurd hr (call r)⟩
      · intro conversation' key' row'' hrow hrow'
        by_cases hkey : Key.command conversation' key' = .command conversation key
        · cases hkey
          cases stored.symm.trans hrow
        · cases hrow.symm.trans ((hcommand conversation' key' hkey).symm.trans hrow')
      · intro conversation' key' before after hrow hrow' hs hs'
        by_cases hkey : Key.command conversation' key' = .command conversation key
        · cases hkey
          cases stored.symm.trans hrow
          cases command.symm.trans hrow'
          exact absurd (rejected.mp hs') hs
        · cases ((hcommand conversation' key' hkey).trans hrow).symm.trans hrow'
          exact absurd hs' hs
      · intro conversation' key' before hrow
        by_cases hkey : Key.command conversation' key' = .command conversation key
        · cases hkey
          cases stored.symm.trans hrow
          exact ⟨row', command, same, rejected.mpr⟩
        · exact ⟨before, (hcommand conversation' key' hkey).trans hrow, rfl, id⟩
      · exact fun owner period id _ _ =>
          ⟨messagesCounted_congr (others (.chatQuota owner period) ⟨trivial, by simp⟩),
            others (.chatQuotaOperation owner id) ⟨trivial, by simp⟩⟩

theorem daily_quota {faults : Faults} {t : Table Key Row}
    {s : State Key Row CommandCall (Except Raised CommandAnswer)}
    (hfresh : ∀ k, IsQuotaRow k → t.row k = none) (h : Reachable (quotaService faults) t s) :
    (∀ owner period, messagesCounted s.table owner period = quotaOperations s.table owner period) ∧
      ∀ e ∈ s.history, QuotaEntry e := by
  have hsound := Reachable.sound (Γ := quotaContract faults) h (.of_fresh hfresh) fun c u _ => c.quota_safe
  exact ⟨hsound.inv.counted, fun e he => CommandCall.QuotaChange.entry (hsound.history e he).2.1⟩

namespace QuotaSample

def service : Service Key Row CommandCall (Except Raised CommandAnswer) := quotaService .strongReads

def rejection : RejectCommand :=
  ⟨"conversation", "key", "student", "fingerprint", "ATTACHMENT_INVALID", 5⟩

/-- A message is counted and rejected. -/
def rejected : LifecycleSample.Run :=
  ((State.initial LifecycleSample.start).solo service (.claim LifecycleSample.claim) []).solo service
    (.reject rejection) []

theorem rejected_reachable : Reachable service LifecycleSample.start rejected :=
  .trans (State.solo_steps (S := service) trivial trivial trivial [])
    (State.solo_steps (S := service) trivial trivial trivial [])

theorem start_fresh (k : Key) (hk : IsQuotaRow k) : LifecycleSample.start.row k = none := by
  rw [LifecycleSample.start, Table.row_apply_of_notMem]
  · rfl
  · intro w hw he
    cases List.mem_singleton.mp hw
    rw [he] at hk
    exact hk

end QuotaSample

theorem daily_quota_sample :
    (∀ owner period, messagesCounted QuotaSample.rejected.table owner period =
      quotaOperations QuotaSample.rejected.table owner period) ∧
    QuotaSample.rejected.history.map (fun e => (messagesCounted e.before "student" "2026-03-01",
      messagesCounted e.after "student" "2026-03-01")) = [(1, 0), (0, 1)] :=
  ⟨(daily_quota QuotaSample.start_fresh QuotaSample.rejected_reachable).1, by decide +kernel⟩

end Stoa.AskQuestion
