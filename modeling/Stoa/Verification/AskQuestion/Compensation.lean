import Stoa.Verification.AskQuestion.Quota

/-! # Giving back the charge of a refused message

What is given back is compared with the value of the counter that was recorded
when the message was charged. -/

namespace Stoa.AskQuestion

open RowStore

/-! ## How the rows are written -/

/-- Every command is marked as one, and every charge names its command. -/
structure Stamped (t : Table Key Row) : Prop where
  commands : ∀ conversation key row, t.row (.command conversation key) = some row →
    row.entityType = "message_command" ∧ row.schemaVersion = "message-command.v2"
  operations : ∀ owner id operation, t.row (.chatQuotaOperation owner id) = some operation →
    operation.commandId = id

section

variable {c : CommandCall} {t t' : Table Key Row} {ops : List (Write Key Row)}

theorem Stamped.agree (h : Stamped t) (ha : t'.AgreesOn IsQuotaRow t) : Stamped t' where
  commands conversation key row hrow :=
    h.commands conversation key row ((ha (.command conversation key) trivial).symm.trans hrow)
  operations owner id operation hop :=
    h.operations owner id operation ((ha (.chatQuotaOperation owner id) trivial).symm.trans hop)

theorem Moves.stamp {conversation key : String} {u : Update} (h : Moves c conversation key u)
    (row : CommandRow) : (u.change row).entityType = row.entityType ∧
      (u.change row).schemaVersion = row.schemaVersion := by
  cases h <;> exact ⟨rfl, rfl⟩

theorem CommandCall.Change.stamped (h : c.Change t t') (hs : Stamped t) (conversation key : String)
    (row : CommandRow) (hrow : t'.row (.command conversation key) = some row) :
    row.entityType = "message_command" ∧ row.schemaVersion = "message-command.v2" := by
  cases h with
  | created r expectedCounter call absent stored others =>
      by_cases hkey : Key.command conversation key =
          .command r.command.conversationId r.command.idempotencyKey
      · cases hkey
        cases stored.symm.trans hrow
        exact ⟨rfl, rfl⟩
      · exact hs.commands conversation key row
          ((others (.command conversation key) ⟨trivial, hkey⟩).symm.trans hrow)
  | updated conversation' key' u before moves hbefore admitted after others =>
      by_cases hkey : Key.command conversation key = .command conversation' key'
      · cases hkey
        cases after.symm.trans hrow
        rw [(moves.stamp before).1, (moves.stamp before).2]
        exact hs.commands conversation key before hbefore
      · exact hs.commands conversation key row
          ((others (.command conversation key) ⟨trivial, hkey⟩).symm.trans hrow)

/-- The charges that a transaction writes name their commands. -/
theorem CommandCall.Transaction.names (h : c.Transaction ops) (ha : t.Admits ops) (hs : Stamped t)
    (owner id : String) (operation : ChatQuotaOperationRow)
    (hop : (t.apply ops).row (.chatQuotaOperation owner id) = some operation) :
    operation.commandId = id := by
  -- A charge that is not written is there already.
  have hkept : (∀ w ∈ ops, Key.chatQuotaOperation owner id ≠ w.key) → operation.commandId = id :=
    fun hne => hs.operations owner id operation ((t.row_apply_of_notMem ops _ hne).symm.trans hop)
  cases h with
  | created r n limited =>
      by_cases hkey : Key.chatQuotaOperation owner id =
          .chatQuotaOperation r.command.ownerId r.command.commandId
      · cases hkey
        have hput : Write.putNew (.chatQuotaOperation r.command.ownerId r.command.commandId)
            (r.quotaOperation n) ∈ r.operations n := by simp [ClaimCommand.operations]
        cases (t.row_apply_of_mem ha.1 hput).symm.trans hop
        rfl
      · refine hkept fun w hw => ?_
        simp only [ClaimCommand.operations, List.mem_cons, List.not_mem_nil, or_false] at hw
        rcases hw with rfl | rfl | rfl | rfl
        · simp [fenceCheck, Write.check]
        · simp [Write.putNew, Write.put]
        · exact hkey
        · simp [Write.update]
  | updated moves contains =>
      refine hkept fun w hw he => ?_
      rcases contains.others w hw with rfl | hother
      · simp [Update.write, Write.modify] at he
      · rw [← he] at hother
        exact hother trivial
  | rejected r command =>
      by_cases hkey : Key.chatQuotaOperation owner id = .chatQuotaOperation r.ownerId command.commandId
      · cases hkey
        have hdelete : Write.delete (.chatQuotaOperation r.ownerId command.commandId)
            (Option.any fun operation => operation.commandId = command.commandId) ∈ r.operations command := by
          simp [RejectCommand.operations]
        cases (t.row_apply_of_mem ha.1 hdelete).symm.trans hop
      · refine hkept fun w hw => ?_
        simp only [RejectCommand.operations, List.mem_cons, List.not_mem_nil, or_false] at hw
        rcases hw with rfl | rfl | rfl
        · simp [Update.write, Write.modify]
        · exact hkey
        · simp [Write.modify]

theorem CommandCall.Transaction.stamped (h : c.Transaction ops) (ha : t.Admits ops)
    (hs : Stamped t) : Stamped (t.apply ops) :=
  ⟨(h.change ha).stamped hs, h.names ha hs⟩

end

def stampContract (faults : Faults) : Contract (quotaService faults) where
  Inv := Stamped
  Rely _ _ := True
  refl _ := trivial
  trans _ _ := trivial
  Move _ t t' := Stamped t → Stamped t'
  move_inv ht h := h ht
  move_rely _ _ := trivial
  drift_inv ht h := ht.agree h
  drift_rely _ _ := trivial

section

variable {faults : Faults} {t : Table Key Row} {s : State Key Row CommandCall (Except Raised CommandAnswer)}

theorem quota_charged (hfresh : ∀ k, IsQuotaRow k → t.row k = none)
    (h : Reachable (quotaService faults) t s) : Charged s.table :=
  (Reachable.sound (Γ := quotaContract faults) h (.of_fresh hfresh) fun c _ _ => c.quota_safe).inv

theorem quota_stamped (hfresh : ∀ k, IsQuotaRow k → t.row k = none)
    (h : Reachable (quotaService faults) t s) : Stamped s.table := by
  refine (Reachable.sound (Γ := stampContract faults) h ?_ (Q := fun _ _ _ _ => True) fun c _ _ =>
    c.submits.safe fun _ _ hops _ ha hs => hops.stamped ha hs).inv
  refine ⟨fun conversation key row hrow => ?_, fun owner id operation hop => ?_⟩
  · simp [hfresh (.command conversation key) trivial] at hrow
  · simp [hfresh (.chatQuotaOperation owner id) trivial] at hop

end

/-! ## One rejection -/

/-- The rejection answers that the command is rejected, stores that, removes the
charge and lowers the counter by one. -/
structure GivenBack (t : Table Key Row) (r : RejectCommand) (row : CommandRow) : Prop where
  answered : ∃ result, ((rejectMessageCommandAndCompensate r).run.alone t).1 = .ok result ∧
    result.disposition = .rejected
  command : ∃ row', ((rejectMessageCommandAndCompensate r).run.alone t).2.row
      (.command r.conversationId r.idempotencyKey) = some row' ∧
    row'.toCommandIdentity = row.toCommandIdentity ∧ row'.status = .rejected
  uncharged : ((rejectMessageCommandAndCompensate r).run.alone t).2.row
    (.chatQuotaOperation row.ownerId row.commandId) = none
  counted : messagesCounted t row.ownerId row.quotaPeriod =
    messagesCounted ((rejectMessageCommandAndCompensate r).run.alone t).2 row.ownerId row.quotaPeriod + 1

section

variable {t : Table Key Row} {r : RejectCommand} {row : CommandRow}

theorem classifyMessageCommand_claimed (hstamp : row.entityType = "message_command" ∧
      row.schemaVersion = "message-command.v2") (hclaimed : row.status = .claimed) :
    (classifyMessageCommand (some row) row.ownerId row.fingerprint 0).disposition =
        (if 0 < row.rowExpiresAt then .claimed else .expired) ∧
      (classifyMessageCommand (some row) row.ownerId row.fingerprint 0).command = some row := by
  by_cases hexpires : row.rowExpiresAt = 0
  · simp [classifyMessageCommand, hstamp, CommandRow.disposition, hclaimed, hexpires]
  · simp [classifyMessageCommand, hstamp, CommandRow.disposition, hclaimed, hexpires, Nat.pos_of_ne_zero]

/-- A charged command finds its charge, and a counter that is not zero. -/
theorem Charged.positive (h : Charged t) {conversation key : String}
    (hrow : t.row (.command conversation key) = some row) (hs : row.status ≠ .rejected) :
    0 < messagesCounted t row.ownerId row.quotaPeriod := by
  obtain ⟨operation, hop, hperiod⟩ := h.charged conversation key row hrow hs
  rw [h.counted, quotaOperations, t.total_eq_add_erase _ (.chatQuotaOperation row.ownerId row.commandId), hop]
  simp only [Option.elim_some, operationIn, hperiod, and_self, if_true]
  omega

/-- The transaction is admitted where the counter has not moved on. -/
theorem RejectCommand.admits_iff (hc : Charged t) (hs : Stamped t)
    (hrow : t.row (.command r.conversationId r.idempotencyKey) = some row)
    (hclaimed : row.status = .claimed) (howner : row.ownerId = r.ownerId)
    (hfingerprint : row.fingerprint = r.fingerprint) :
    t.Admits (r.operations row) ↔
      messagesCounted t row.ownerId row.quotaPeriod = row.counterValue := by
  have hpositive := hc.positive hrow (by simp [hclaimed])
  obtain ⟨operation, hop, -⟩ := hc.charged _ _ row hrow (by simp [hclaimed])
  have hnamed := hs.operations _ _ operation hop
  have hmessages : messagesCounted t row.ownerId row.quotaPeriod =
      (t.row (.chatQuota r.ownerId row.quotaPeriod)).elim 0 ChatQuotaRow.count := by
    rw [messagesCounted, howner]
  rw [howner] at hop
  cases hquota : t.row (.chatQuota r.ownerId row.quotaPeriod) with
  | none =>
      rw [hquota] at hmessages
      simp only [Option.elim_none] at hmessages
      omega
  | some counter =>
      rw [hquota] at hmessages
      simp only [Option.elim_some] at hmessages
      have hcount : 0 < counter.count := hmessages ▸ hpositive
      rw [hmessages]
      simp [Table.Admits, operations, Update.write, Write.modify, Write.delete, hrow, hop, hquota,
        RejectCommand.update, howner, hfingerprint, hclaimed, hnamed, hcount]

theorem RejectCommand.reconcile_alone : ∃ result, r.reconcile.run.alone t = (.ok result, t) := by
  unfold reconcile
  dsimp only [getMessageCommand]
  rw [RowStore.Handler.alone_get_bind]
  split
  · exact ⟨_, rfl⟩
  · exact ⟨_, rfl⟩

/-- What the rejection of a stored command comes to. -/
theorem rejectMessageCommandAndCompensate_alone (hs : Stamped t)
    (hrow : t.row (.command r.conversationId r.idempotencyKey) = some row)
    (hclaimed : row.status = .claimed) (howner : row.ownerId = r.ownerId)
    (hfingerprint : row.fingerprint = r.fingerprint) :
    ∃ result, (rejectMessageCommandAndCompensate r).run.alone t =
        (.ok result, if 0 < row.rowExpiresAt ∧ t.Admits (r.operations row) then t.apply (r.operations row) else t) ∧
      (0 < row.rowExpiresAt ∧ t.Admits (r.operations row) → result.disposition = .rejected) := by
  have hread := classifyMessageCommand_claimed (hs.commands _ _ row hrow) hclaimed
  rw [howner, hfingerprint] at hread
  obtain ⟨hdisposition, hcommand⟩ := hread
  by_cases hexpires : 0 < row.rowExpiresAt
  · rw [if_pos hexpires] at hdisposition
    by_cases ha : t.Admits (r.operations row)
    · rw [if_pos (And.intro hexpires ha)]
      refine ⟨{
        disposition := .rejected
        command := some (r.update.change row)
        counterValue := some row.counterValue
        errorCode := some r.errorCode },
        RowStore.Handler.alone_tryCatch_ok (RowStore.Handler.alone_get_bind.trans ?_), fun _ => rfl⟩
      dsimp only
      rw [hrow, hdisposition, hcommand, RowStore.Handler.alone_submit_bind, if_pos ha]
      rfl
    · rw [if_neg fun h : 0 < row.rowExpiresAt ∧ t.Admits (r.operations row) => ha h.2]
      obtain ⟨result, hresult⟩ := r.reconcile_alone (t := t)
      refine ⟨result, RowStore.Handler.alone_tryCatch_ok (RowStore.Handler.alone_get_bind.trans ?_),
        fun h => absurd h.2 ha⟩
      dsimp only
      rw [hrow, hdisposition, hcommand, RowStore.Handler.alone_submit_bind, if_neg ha]
      exact hresult
  · rw [if_neg hexpires] at hdisposition
    rw [if_neg fun h : 0 < row.rowExpiresAt ∧ t.Admits (r.operations row) => hexpires h.1]
    refine ⟨classifyMessageCommand (some row) r.ownerId r.fingerprint 0,
      RowStore.Handler.alone_tryCatch_ok (RowStore.Handler.alone_get_bind.trans ?_),
      fun h => absurd h.1 hexpires⟩
    dsimp only
    rw [hrow, hdisposition]
    rfl

/-- A rejection in a table whose charges are in order. -/
theorem GivenBack.iff (hc : Charged t) (hs : Stamped t)
    (hrow : t.row (.command r.conversationId r.idempotencyKey) = some row)
    (hclaimed : row.status = .claimed) (howner : row.ownerId = r.ownerId)
    (hfingerprint : row.fingerprint = r.fingerprint) :
    GivenBack t r row ↔ 0 < row.rowExpiresAt ∧
      messagesCounted t row.ownerId row.quotaPeriod = row.counterValue := by
  obtain ⟨result, halone, hrejected⟩ :=
    rejectMessageCommandAndCompensate_alone hs hrow hclaimed howner hfingerprint
  rw [← RejectCommand.admits_iff hc hs hrow hclaimed howner hfingerprint]
  constructor
  · intro h
    by_contra hn
    obtain ⟨row', hrow', -, hs'⟩ := h.command
    rw [halone, if_neg hn] at hrow'
    cases hrow.symm.trans hrow'
    cases hclaimed.symm.trans hs'
  · intro h
    rw [if_pos h] at halone
    have hpositive := hc.positive hrow (by simp [hclaimed])
    have hwrites : ∀ w ∈ r.operations row, (t.apply (r.operations row)).row w.key = w.action (t.row w.key) :=
      fun w hw => t.row_apply_of_mem h.2.1 hw
    simp only [RejectCommand.operations, List.forall_mem_cons] at hwrites
    obtain ⟨hcommand, hoperation, hcounter, -⟩ := hwrites
    have hcommand' := hcommand.trans (congrArg (Option.map r.update.change) hrow)
    have hcounted : messagesCounted (t.apply (r.operations row)) row.ownerId row.quotaPeriod =
        messagesCounted t row.ownerId row.quotaPeriod - 1 := by
      rw [messagesCounted, messagesCounted, howner]
      refine (congrArg (fun item => Option.elim item 0 ChatQuotaRow.count) hcounter).trans ?_
      change Option.elim (Option.map _ (t.row (.chatQuota r.ownerId row.quotaPeriod))) 0 ChatQuotaRow.count = _
      cases t.row (.chatQuota r.ownerId row.quotaPeriod) <;> rfl
    refine ⟨⟨result, by rw [halone], hrejected h⟩, ?_, ?_, ?_⟩
    · rw [halone]
      exact ⟨_, hcommand', rfl, rfl⟩
    · rw [halone, howner]
      exact hoperation
    · rw [halone, hcounted]
      omega

end

/-- A refused message gives its charge back where the counter is still at the value that was recorded
with it, and nowhere else. -/
theorem given_back_iff {faults : Faults} {t : Table Key Row}
    {s : State Key Row CommandCall (Except Raised CommandAnswer)}
    (hfresh : ∀ k, IsQuotaRow k → t.row k = none) (h : Reachable (quotaService faults) t s)
    {conversation key : String} {row : CommandRow}
    (hrow : s.table.row (.command conversation key) = some row) (hclaimed : row.status = .claimed)
    (errorCode : String) (now : Instant) :
    GivenBack s.table ⟨conversation, key, row.ownerId, row.fingerprint, errorCode, now⟩ row ↔
      0 < row.rowExpiresAt ∧
        messagesCounted s.table row.ownerId row.quotaPeriod = row.counterValue :=
  GivenBack.iff (quota_charged hfresh h) (quota_stamped hfresh h) hrow hclaimed rfl rfl

namespace QuotaSample

/-- The same student's next message. -/
def later : ClaimCommand :=
  { LifecycleSample.claim with
    command := { LifecycleSample.identity with
      commandId := "later"
      idempotencyKey := "later" } }

/-- Two messages are counted. -/
def both : LifecycleSample.Run :=
  ((State.initial LifecycleSample.start).solo service (.claim LifecycleSample.claim) []).solo service
    (.claim later) []

theorem both_reachable : Reachable service LifecycleSample.start both :=
  .trans (State.solo_steps (S := service) trivial trivial trivial [])
    (State.solo_steps (S := service) trivial trivial trivial [])

theorem both_later : both.table.row (.command "conversation" "later") = some (later.item 1) := by
  decide +kernel

end QuotaSample

theorem given_back_later : GivenBack QuotaSample.both.table
    ⟨"conversation", "later", "student", "fingerprint", "upload_not_found", 5⟩ (QuotaSample.later.item 1) :=
  (given_back_iff QuotaSample.start_fresh QuotaSample.both_reachable QuotaSample.both_later rfl
    "upload_not_found" 5).mpr (by decide +kernel)

/-- The message that was counted first can not be given back: the answer is to try again, and
nothing is changed. -/
theorem given_back_earlier :
    ∃ s, Reachable QuotaSample.service LifecycleSample.start s ∧
      s.table.row (.command "conversation" "key") = some (LifecycleSample.claim.item 0) ∧
      ¬ GivenBack s.table QuotaSample.rejection (LifecycleSample.claim.item 0) := by
  refine ⟨QuotaSample.both, QuotaSample.both_reachable, by decide +kernel, fun h => ?_⟩
  have hcounted := h.counted
  revert hcounted
  decide +kernel

end Stoa.AskQuestion
