import Stoa.Verification.AskQuestion.Commits
import Stoa.Store.Solo

/-! # The lifecycle of a command

Each write is made under a condition of its own. Together they move the status
along one graph, and let one owner at a time hold an unexpired lease. -/

namespace Stoa.AskQuestion

open RowStore

/-! ## Status and attempts -/

/-- Where a status may move to. -/
def CommandStatus.next : CommandStatus → List CommandStatus
  | .claimed => [.messageCommitted, .rejected]
  | .messageCommitted => [.aiRunning]
  | .aiRunning => [.aiRunning, .completed, .failed, .terminalFailed]
  | .failed => [.messageCommitted, .aiRunning]
  | .completed => []
  | .rejected => []
  | .terminalFailed => []
  | .expired => []

/-- What one commit may make of a stored command. Only the settlement of the
allowance is still noted on a command that ran out of attempts. -/
structure CommandRow.Follows (row row' : CommandRow) : Prop where
  status : row'.status = row.status ∨ row'.status ∈ row.status.next
  final : row.status = .completed ∨ row.status = .rejected → row' = row
  terminal : row.status = .terminalFailed →
    row' = { row with allowanceSettledAt := row'.allowanceSettledAt }

namespace CommandRow.Follows

variable {row row' : CommandRow}

theorem refl (row : CommandRow) : row.Follows row := ⟨.inl rfl, fun _ => rfl, fun _ => rfl⟩

/-- A status that may move is not final. -/
theorem moved (h : row'.status ∈ row.status.next) : row.Follows row' where
  status := .inr h
  final := by
    rintro (hs | hs) <;> simp [hs, CommandStatus.next] at h
  terminal := by
    intro hs
    simp [hs, CommandStatus.next] at h

theorem stayed (h : row'.status = row.status) (hs : row.status = .aiRunning ∨ row.status = .failed) :
    row.Follows row' where
  status := .inl h
  final := by
    rcases hs with hs | hs <;> simp [hs]
  terminal := by
    rcases hs with hs | hs <;> simp [hs]

end CommandRow.Follows

section

variable {c : CommandCall} {conversation key : String} {u : Update} {row : CommandRow}

theorem Holder.status_of_holds {h : Holder} (hh : h.holds row) : row.status = .aiRunning :=
  (of_decide_eq_true hh).2.1

theorem Holder.status_of_leased {h : Holder} {nowEpoch : ℕ} {change : CommandRow → CommandRow}
    (hh : (h.leasedUpdate nowEpoch change).condition row) : row.status = .aiRunning :=
  status_of_holds (of_decide_eq_true hh).1

/-- The status in which a claim of a lease finds the command. -/
theorem ClaimLease.status_of_condition {r : ClaimLease} {command : CommandRow}
    (h : (r.update command).condition row) :
    row.status = .messageCommitted ∨ row.status = .failed ∨
      row.status = .aiRunning ∧ row.expiresAt.any (· ≤ r.nowEpoch) := by
  obtain ⟨-, -, hstatus, -⟩ := of_decide_eq_true h
  rcases hstatus with hs | ⟨hs, he, -⟩ | ⟨hs, he, -⟩ | ⟨hs, -⟩
  · exact .inl hs
  · exact .inr (.inr ⟨hs, he⟩)
  · exact .inr (.inr ⟨hs, he⟩)
  · exact .inr (.inl hs)

/-- A command whose end is on record has failed. -/
theorem CommandRow.status_of_endedAt {status : CommandStatus} {at_ : Instant}
    (h : row.endedAt status = some at_) : status = .failed ∨ status = .terminalFailed := by
  cases status <;> simp_all [CommandRow.endedAt]

theorem Moves.follows (h : Moves c conversation key u) (hc : u.condition row) :
    row.Follows (u.change row) := by
  cases h with
  | commit r =>
      have hs : row.status = .claimed := (of_decide_eq_true hc).2.2
      exact .moved (by simp [hs, CommandStatus.next, CommitMessage.update])
  | lease r command bounded =>
      refine .moved ?_
      rcases ClaimLease.status_of_condition hc with hs | hs | ⟨hs, -⟩ <;>
        simp [hs, CommandStatus.next, ClaimLease.update]
  | invoke h nowEpoch _ => exact .stayed rfl (.inl (Holder.status_of_leased hc))
  | keep h nowEpoch resultJson _ => exact .stayed rfl (.inl (Holder.status_of_leased hc))
  | renew r => exact .stayed rfl (.inl (of_decide_eq_true hc).2.2.1)
  | complete r =>
      have hs := Holder.status_of_holds (of_decide_eq_true hc).1
      exact .moved (by simp [hs, CommandStatus.next, Completion.update])
  | fail h f _ =>
      have hs := Holder.status_of_holds hc
      exact .moved (by simp [hs, CommandStatus.next, Holder.failure])
  | reopen r =>
      have hs : row.status = .failed := (of_decide_eq_true hc).2.1
      exact .moved (by simp [hs, CommandStatus.next, Reopen.update])
  | markTerminal r =>
      have hs : row.status = .aiRunning := (of_decide_eq_true hc).2.1
      exact .moved (by simp [hs, CommandStatus.next, MarkTerminal.update])
  | closeStale r =>
      have hs : row.status = .aiRunning := (of_decide_eq_true hc).2.1
      exact .moved (by simp [hs, CommandStatus.next, StaleLease.update])
  | closeFailure r => exact .stayed rfl (.inr (of_decide_eq_true hc).2.1)
  | settle r now =>
      obtain ⟨-, hs, hended, -⟩ := of_decide_eq_true hc
      rcases CommandRow.status_of_endedAt hended with hr | hr
      · exact .stayed rfl (.inr (hs.trans hr))
      · exact ⟨.inl rfl, by simp [hs, hr], fun _ => rfl⟩
  | reject r =>
      have hs : row.status = .claimed := (of_decide_eq_true hc).2.2
      exact .moved (by simp [hs, CommandStatus.next, RejectCommand.update])

theorem Moves.keys_of_lease {r : ClaimLease} (h : Moves (.lease r) conversation key u) :
    conversation = r.conversationId ∧ key = r.idempotencyKey := by
  cases h
  exact ⟨rfl, rfl⟩

/-- Only the claim of a lease counts an attempt, and it counts from the command
that it has read. -/
theorem Moves.attempt (h : Moves c conversation key u) (row : CommandRow) :
    (u.change row).attempt = row.attempt ∨ ∃ r command, c = .lease r ∧ u = r.update command ∧
      (u.change row).attempt = ClaimLease.attempt command ∧
      ClaimLease.attempt command ≤ MESSAGE_AI_MAX_ATTEMPTS := by
  cases h with
  | lease r command bounded => exact .inr ⟨r, command, rfl, rfl, rfl, bounded⟩
  | _ => exact .inl rfl

end

/-! ## Leases -/

/-- What a commit of the call says of the lease that an owner holds on a command:
until when it is held, or that it is given back. -/
def CommandCall.leaseWrite (conversation key owner : String) : CommandCall → Option (Option ℕ)
  | .lease r =>
    if r.conversationId = conversation ∧ r.idempotencyKey = key ∧ r.leaseOwner = owner then
      some (some r.expiresAt)
    else none
  | .renew r =>
    if r.conversationId = conversation ∧ r.idempotencyKey = key ∧ r.leaseOwner = owner then
      some (some r.expiresAt)
    else none
  | .complete r =>
    if r.holder.conversationId = conversation ∧ r.holder.idempotencyKey = key ∧
        r.holder.leaseOwner = owner then some none
    else none
  | .fail h _ _ =>
    if h.conversationId = conversation ∧ h.idempotencyKey = key ∧ h.leaseOwner = owner then some none
    else none
  | _ => none

/-- The end of the lease that an owner has on a command, by the latest commit
that says it. -/
def leaseUntil (conversation key owner : String) : List (Commit Key Row CommandCall) → Option ℕ
  | [] => none
  | e :: earlier =>
    match e.call.leaseWrite conversation key owner with
    | some until_ => until_
    | none => leaseUntil conversation key owner earlier

/-- The owner holds a lease on the command that has not run out. -/
def HoldsLease (history : List (Commit Key Row CommandCall)) (conversation key owner : String)
    (now : ℕ) : Prop :=
  ∃ until_, leaseUntil conversation key owner history = some until_ ∧ now < until_

section

variable {c : CommandCall} {conversation key owner : String} {u : Update} {row row' : CommandRow}
  {now : ℕ}

/-- What one commit does to the lease on a command, if `now` is the clock. -/
inductive LeaseStep (now : ℕ) (c : CommandCall) (conversation key : String)
    (row row' : CommandRow) : Prop where
  | claimed (owner : String) (until_ : ℕ)
      (writes : ∀ o, c.leaseWrite conversation key o = if owner = o then some (some until_) else none)
      (free : row.status = .messageCommitted ∨ row.status = .failed ∨
        row.status = .aiRunning ∧ row.expiresAt.any (· ≤ now))
      (running : row'.status = .aiRunning)
      (held : row'.leaseOwner = some owner ∧ row'.expiresAt = some until_)
  | renewed (owner : String) (until_ : ℕ)
      (writes : ∀ o, c.leaseWrite conversation key o = if owner = o then some (some until_) else none)
      (running : row.status = .aiRunning ∧ row'.status = .aiRunning)
      (held : row.leaseOwner = some owner ∧ row'.leaseOwner = some owner ∧
        row'.expiresAt = some until_)
  | released (owner : String)
      (writes : ∀ o, c.leaseWrite conversation key o = if owner = o then some none else none)
      (running : row.status = .aiRunning) (held : row.leaseOwner = some owner)
      (ended : row'.status ≠ .aiRunning)
  | silent (writes : ∀ o, c.leaseWrite conversation key o = none)
      (running : row'.status = .aiRunning → row.status = .aiRunning ∧
        row'.leaseOwner = row.leaseOwner ∧ row'.expiresAt = row.expiresAt)
      (ended : row'.status ≠ .aiRunning → row'.status ≠ .terminalFailed →
        row.status ≠ .aiRunning ∧ row.status ≠ .terminalFailed)

/-- A claim finds the command waiting, or under a lease that has run out. -/
theorem ClaimLease.free_of_condition {r : ClaimLease} {command : CommandRow}
    (h : (r.update command).condition row) (hnow : r.nowEpoch ≤ now) :
    row.status = .messageCommitted ∨ row.status = .failed ∨
      row.status = .aiRunning ∧ row.expiresAt.any (· ≤ now) := by
  rcases ClaimLease.status_of_condition h with hs | hs | ⟨hs, he⟩
  · exact .inl hs
  · exact .inr (.inl hs)
  · obtain ⟨until_, hexpires, hle⟩ := (Option.any_eq_true _ _).mp he
    refine .inr (.inr ⟨hs, ?_⟩)
    rw [hexpires]
    exact decide_eq_true ((of_decide_eq_true hle).trans hnow)

theorem Moves.leaseStep (h : Moves c conversation key u) (hc : u.condition row)
    (hnow : ∀ n ∈ c.nowEpoch, n ≤ now) : LeaseStep now c conversation key row (u.change row) := by
  cases h with
  | commit r =>
      have hs : row.status = .claimed := (of_decide_eq_true hc).2.2
      exact .silent (fun _ => rfl) (by simp [CommitMessage.update]) (by simp [hs])
  | lease r command bounded =>
      exact .claimed r.leaseOwner r.expiresAt (by simp [CommandCall.leaseWrite])
        (ClaimLease.free_of_condition hc (hnow r.nowEpoch rfl)) rfl ⟨rfl, rfl⟩
  | invoke h nowEpoch _ =>
      have hs := Holder.status_of_leased hc
      exact .silent (fun _ => rfl) (fun _ => ⟨hs, rfl, rfl⟩) fun hn _ => absurd hs hn
  | keep h nowEpoch resultJson _ =>
      have hs := Holder.status_of_leased hc
      exact .silent (fun _ => rfl) (fun _ => ⟨hs, rfl, rfl⟩) fun hn _ => absurd hs hn
  | renew r =>
      obtain ⟨-, -, hs, howner, -⟩ := of_decide_eq_true hc
      exact .renewed r.leaseOwner r.expiresAt (by simp [CommandCall.leaseWrite]) ⟨hs, hs⟩
        ⟨howner, howner, rfl⟩
  | complete r =>
      obtain ⟨-, hs, howner, -⟩ := of_decide_eq_true (of_decide_eq_true hc).1
      exact .released r.holder.leaseOwner (by simp [CommandCall.leaseWrite]) hs howner
        (by simp [Completion.update])
  | fail h f _ =>
      obtain ⟨-, hs, howner, -⟩ := of_decide_eq_true hc
      exact .released h.leaseOwner (by simp [CommandCall.leaseWrite]) hs howner
        (by simp [Holder.failure])
  | reopen r =>
      have hs : row.status = .failed := (of_decide_eq_true hc).2.1
      exact .silent (fun _ => rfl) (by simp [Reopen.update]) (by simp [hs])
  | markTerminal r => exact .silent (fun _ => rfl) (by simp [MarkTerminal.update]) (by simp [MarkTerminal.update])
  | closeStale r => exact .silent (fun _ => rfl) (by simp [StaleLease.update]) (by simp [StaleLease.update])
  | closeFailure r =>
      exact .silent (fun _ => rfl) (fun hs => ⟨hs, rfl, rfl⟩) fun hn hn' => ⟨hn, hn'⟩
  | settle r now =>
      exact .silent (fun _ => rfl) (fun hs => ⟨hs, rfl, rfl⟩) fun hn hn' => ⟨hn, hn'⟩
  | reject r =>
      have hs : row.status = .claimed := (of_decide_eq_true hc).2.2
      exact .silent (fun _ => rfl) (by simp [RejectCommand.update]) (by simp [hs])

/-- A commit says nothing of the leases on other commands. -/
theorem Moves.leaseWrite_other (h : Moves c conversation key u) {conversation' key' : String}
    (hne : Key.command conversation' key' ≠ .command conversation key) (owner : String) :
    c.leaseWrite conversation' key' owner = none := by
  have hkeys : ¬ (conversation = conversation' ∧ key = key') := by
    rintro ⟨rfl, rfl⟩
    exact hne rfl
  cases h <;> first | rfl | exact if_neg fun he => hkeys ⟨he.1, he.2.1⟩

end

/-! ## One unexpired lease -/

/-- At most the holder has an unexpired lease on the command, and none has while
the command waits for a claim. -/
structure HeldBy (w : View Key Row CommandCall) (conversation key holder : String) : Prop where
  others : ∀ owner, owner ≠ holder → ¬ HoldsLease w.history conversation key owner w.clock
  running : ∀ row, w.table.row (.command conversation key) = some row → row.status = .aiRunning →
    row.leaseOwner = some holder ∧ row.expiresAt = leaseUntil conversation key holder w.history
  free : (∀ row, w.table.row (.command conversation key) = some row →
      row.status ≠ .aiRunning ∧ row.status ≠ .terminalFailed) →
    ¬ HoldsLease w.history conversation key holder w.clock

section

variable {w : View Key Row CommandCall} {i : ℕ} {c : CommandCall} {ops : List (Write Key Row)}
  {conversation key holder owner : String} {row row' : CommandRow}

theorem leaseUntil_commit (owner : String) : leaseUntil conversation key owner (w.commit i c ops).history =
    ((c.leaseWrite conversation key owner).getD (leaseUntil conversation key owner w.history)) := by
  rw [View.history_commit, leaseUntil]
  cases c.leaseWrite conversation key owner <;> rfl

/-- A commit that says nothing of the leases on a command. -/
theorem HeldBy.silent (h : HeldBy w conversation key holder)
    (hwrites : ∀ o, c.leaseWrite conversation key o = none)
    (hrunning : ∀ row', (w.commit i c ops).table.row (.command conversation key) = some row' →
      row'.status = .aiRunning → ∃ row, w.table.row (.command conversation key) = some row ∧
        row.status = .aiRunning ∧ row'.leaseOwner = row.leaseOwner ∧ row'.expiresAt = row.expiresAt)
    (hended : (∀ row', (w.commit i c ops).table.row (.command conversation key) = some row' →
        row'.status ≠ .aiRunning ∧ row'.status ≠ .terminalFailed) →
      ∀ row, w.table.row (.command conversation key) = some row →
        row.status ≠ .aiRunning ∧ row.status ≠ .terminalFailed) :
    HeldBy (w.commit i c ops) conversation key holder := by
  have huntil : ∀ o, leaseUntil conversation key o (w.commit i c ops).history =
      leaseUntil conversation key o w.history := fun o => by
    rw [leaseUntil_commit, hwrites, Option.getD_none]
  constructor
  · rintro o hne ⟨end_, hend, hlt⟩
    exact h.others o hne ⟨end_, by rw [← huntil, hend], hlt⟩
  · intro row' hrow' hs
    obtain ⟨row, hrow, hs', howner, hexpires⟩ := hrunning row' hrow' hs
    rw [huntil, howner, hexpires]
    exact h.running row hrow hs'
  · rintro hfree ⟨end_, hend, hlt⟩
    exact h.free (hended hfree) ⟨end_, by rw [← huntil, hend], hlt⟩

/-- A claim finds no unexpired lease. -/
theorem HeldBy.free_of_claimed (h : HeldBy w conversation key holder)
    (hrow : w.table.row (.command conversation key) = some row)
    (hfree : row.status = .messageCommitted ∨ row.status = .failed ∨
      row.status = .aiRunning ∧ row.expiresAt.any (· ≤ w.clock)) (owner : String) :
    ¬ HoldsLease w.history conversation key owner w.clock := by
  by_cases hne : owner = holder
  · subst hne
    rcases hfree with hs | hs | ⟨hs, hexpired⟩
    · exact h.free fun r hr => by cases hrow.symm.trans hr; simp [hs]
    · exact h.free fun r hr => by cases hrow.symm.trans hr; simp [hs]
    · rintro ⟨until_, hend, hlt⟩
      rw [(h.running row hrow hs).2, hend] at hexpired
      have hle : until_ ≤ w.clock := of_decide_eq_true hexpired
      omega
  · exact h.others owner hne

theorem HeldBy.step (h : HeldBy w conversation key holder)
    (hrow : w.table.row (.command conversation key) = some row)
    (hrow' : (w.commit i c ops).table.row (.command conversation key) = some row')
    (hstep : LeaseStep w.clock c conversation key row row') :
    ∃ holder', HeldBy (w.commit i c ops) conversation key holder' := by
  cases hstep with
  | claimed owner until_ writes free running held =>
      refine ⟨owner, ?_, ?_, ?_⟩
      · rintro o hne ⟨end_, hend, hlt⟩
        rw [leaseUntil_commit, writes, if_neg (Ne.symm hne), Option.getD_none] at hend
        exact h.free_of_claimed hrow free o ⟨end_, hend, hlt⟩
      · intro r hr hs
        cases hrow'.symm.trans hr
        rw [leaseUntil_commit, writes, if_pos rfl]
        exact held
      · exact fun hfree => absurd running (hfree row' hrow').1
  | renewed owner until_ writes running held =>
      obtain rfl : holder = owner :=
        Option.some.inj ((h.running row hrow running.1).1.symm.trans held.1)
      refine ⟨holder, ?_, ?_, ?_⟩
      · rintro o hne ⟨end_, hend, hlt⟩
        rw [leaseUntil_commit, writes, if_neg (Ne.symm hne), Option.getD_none] at hend
        exact h.others o hne ⟨end_, hend, hlt⟩
      · intro r hr hs
        cases hrow'.symm.trans hr
        rw [leaseUntil_commit, writes, if_pos rfl]
        exact held.2
      · exact fun hfree => absurd running.2 (hfree row' hrow').1
  | released owner writes running held ended =>
      obtain rfl : holder = owner :=
        Option.some.inj ((h.running row hrow running).1.symm.trans held)
      refine ⟨holder, ?_, ?_, ?_⟩
      · rintro o hne ⟨end_, hend, hlt⟩
        rw [leaseUntil_commit, writes, if_neg (Ne.symm hne), Option.getD_none] at hend
        exact h.others o hne ⟨end_, hend, hlt⟩
      · intro r hr hs
        cases hrow'.symm.trans hr
        exact absurd hs ended
      · rintro - ⟨end_, hend, -⟩
        rw [leaseUntil_commit, writes, if_pos rfl] at hend
        cases hend
  | silent writes running ended =>
      refine ⟨holder, h.silent writes (fun r hr hs => ?_) fun hfree r hr => ?_⟩
      · cases hrow'.symm.trans hr
        exact ⟨row, hrow, running hs⟩
      · obtain ⟨hn, hn'⟩ := hfree row' hrow'
        cases hrow.symm.trans hr
        exact ended hn hn'

/-- Every commit leaves at most one unexpired lease. -/
theorem CommandCall.Change.heldBy {c : CommandCall} (hc : c.Change w.table (w.table.apply ops))
    (hnow : ∀ n ∈ c.nowEpoch, n ≤ w.clock) (h : HeldBy w conversation key holder) :
    ∃ holder', HeldBy (w.commit i c ops) conversation key holder' := by
  cases hc with
  | created r expectedCounter call absent stored others =>
      subst call
      by_cases hkey : Key.command conversation key =
          .command r.command.conversationId r.command.idempotencyKey
      · obtain ⟨rfl, rfl⟩ := Key.command.inj hkey
        refine ⟨holder, h.silent (fun _ => rfl) (fun r hr hs => ?_) fun _ r hr => ?_⟩
        · cases stored.symm.trans hr
          cases hs
        · cases absent.symm.trans hr
      · have hsame := others (.command conversation key) ⟨trivial, hkey⟩
        exact ⟨holder, h.silent (fun _ => rfl)
          (fun row' hr hs => ⟨row', hsame ▸ hr, hs, rfl, rfl⟩) fun hfree row hr =>
            hfree row (hsame.trans hr)⟩
  | updated conversation' key' u row moves before admitted after others =>
      by_cases hkey : Key.command conversation key = .command conversation' key'
      · obtain ⟨rfl, rfl⟩ := Key.command.inj hkey
        exact h.step before after (moves.leaseStep admitted hnow)
      · have hsame := others (.command conversation key) ⟨trivial, hkey⟩
        exact ⟨holder, h.silent (moves.leaseWrite_other hkey)
          (fun row' hr hs => ⟨row', hsame ▸ hr, hs, rfl, rfl⟩) fun hfree row hr =>
            hfree row (hsame.trans hr)⟩

/-- A claim is committed when no owner has an unexpired lease. -/
theorem CommandCall.Change.free_of_lease {r : ClaimLease}
    (hc : (CommandCall.lease r).Change w.table (w.table.apply ops)) (hnow : r.nowEpoch ≤ w.clock)
    (h : HeldBy w r.conversationId r.idempotencyKey holder) (owner : String) :
    ¬ HoldsLease w.history r.conversationId r.idempotencyKey owner w.clock := by
  cases hc with
  | created r' expectedCounter call absent stored others => cases call
  | updated conversation' key' u row moves before admitted after others =>
      cases moves with
      | lease _ command bounded =>
          exact h.free_of_claimed before (ClaimLease.free_of_condition admitted hnow) owner

end

/-! ## Every run -/

/-- A claim of a lease is committed while the stored attempt is the one that the
claim counts from. -/
def ClaimsCurrent : CommandCall → Program Key Row (Except Raised CommandAnswer) → Table Key Row → Prop
  | .lease r, p, t => ∃ command next stored, p = .transact (r.operations command) next ∧
      t.row (.command r.conversationId r.idempotencyKey) = some stored ∧
      stored.attempt = command.attempt
  | _, _, _ => True

/-- The table after the commits of a history. -/
def latest (t : Table Key Row) : List (Commit Key Row CommandCall) → Table Key Row
  | [] => t
  | e :: _ => e.after

structure Lifecycle (t : Table Key Row) (w : View Key Row CommandCall) : Prop where
  /-- Nothing but the commits writes a command. -/
  committed : w.table.AgreesOn IsCommandRow (latest t w.history)
  follows : ∀ e ∈ w.history, ∀ conversation key row,
    e.before.row (.command conversation key) = some row →
    ∃ row', e.after.row (.command conversation key) = some row' ∧ row.Follows row' ∧
      row.attempt ≤ row'.attempt
  attempts : ∀ conversation key row, w.table.row (.command conversation key) = some row →
    row.attempt ≤ MESSAGE_AI_MAX_ATTEMPTS
  /-- Two owners never both hold an unexpired lease. -/
  one_lease : ∀ conversation key owner owner',
    HoldsLease w.history conversation key owner w.clock →
    HoldsLease w.history conversation key owner' w.clock → owner = owner'
  /-- No owner holds one when a lease is claimed. -/
  claimed : ∀ later e earlier r, w.history = later ++ e :: earlier → e.call = .lease r →
    ∀ owner, ¬ HoldsLease earlier r.conversationId r.idempotencyKey owner e.time

/-- What every step keeps, with the calls that are running. -/
structure LifecycleInv (t : Table Key Row) (w : View Key Row CommandCall)
    (g : ℕ → Option CommandCall) : Prop extends Lifecycle t w where
  clocks : ∀ i c, g i = some c → ∀ now ∈ c.nowEpoch, now ≤ w.clock
  held : ∀ conversation key, ∃ holder, HeldBy w conversation key holder

theorem HeldBy.one {w : View Key Row CommandCall} {conversation key holder owner owner' : String}
    (h : HeldBy w conversation key holder) (ho : HoldsLease w.history conversation key owner w.clock)
    (ho' : HoldsLease w.history conversation key owner' w.clock) : owner = owner' := by
  have heq : ∀ o, HoldsLease w.history conversation key o w.clock → o = holder := fun o hholds => by
    by_contra hne
    exact h.others o hne hholds
  rw [heq owner ho, heq owner' ho']

/-- A lease that has run out stays so. -/
theorem HoldsLease.mono {history : List (Commit Key Row CommandCall)} {conversation key owner : String}
    {now now' : ℕ} (h : HoldsLease history conversation key owner now') (hle : now ≤ now') :
    HoldsLease history conversation key owner now := by
  obtain ⟨until_, hend, hlt⟩ := h
  exact ⟨until_, hend, hle.trans_lt hlt⟩

section

variable {w : View Key Row CommandCall} {g : ℕ → Option CommandCall} {i : ℕ} {c : CommandCall}
  {ops : List (Write Key Row)} {t : Table Key Row}

/-- The attempt of a claim is not less than the one that it counts from. -/
theorem ClaimLease.le_attempt (command : CommandRow) : command.attempt ≤ ClaimLease.attempt command := by
  unfold ClaimLease.attempt
  split <;> omega

theorem ClaimLease.row_operations {r : ClaimLease} {command row : CommandRow}
    (ha : t.Admits (r.operations command))
    (hrow : t.row (.command r.conversationId r.idempotencyKey) = some row) :
    (t.apply (r.operations command)).row (.command r.conversationId r.idempotencyKey) =
      some ((r.update command).change row) := by
  have hmem : (r.update command).write r.conversationId r.idempotencyKey ∈ r.operations command := by
    simp [operations]
  exact (t.row_apply_of_mem ha.1 hmem).trans (congrArg (Option.map _) hrow)

/-- What a commit makes of the commands that were there. -/
theorem CommandCall.Change.follows {next : Bool → Program Key Row (Except Raised CommandAnswer)}
    (hc : c.Change w.table (w.table.apply ops)) (ha : w.table.Admits ops)
    (hcurrent : ClaimsCurrent c (.transact ops next) w.table) {conversation key : String}
    {row : CommandRow} (hrow : w.table.row (.command conversation key) = some row) :
    ∃ row', (w.table.apply ops).row (.command conversation key) = some row' ∧ row.Follows row' ∧
      row.attempt ≤ row'.attempt ∧
      (row.attempt ≤ MESSAGE_AI_MAX_ATTEMPTS → row'.attempt ≤ MESSAGE_AI_MAX_ATTEMPTS) := by
  cases hc with
  | created r expectedCounter call absent stored others =>
      have hkey : Key.command conversation key ≠
          .command r.command.conversationId r.command.idempotencyKey := fun he => by
        cases he
        cases absent.symm.trans hrow
      exact ⟨row, (others (.command conversation key) ⟨trivial, hkey⟩).trans hrow, .refl row, le_rfl, id⟩
  | updated conversation' key' u stored moves before admitted after others =>
      by_cases hkey : Key.command conversation key = .command conversation' key'
      · cases hkey
        cases before.symm.trans hrow
        refine ⟨_, after, moves.follows admitted, ?_⟩
        rcases moves.attempt row with hsame | ⟨r, command, rfl, rfl, hcounts, hbounded⟩
        · exact ⟨hsame.ge, fun h => hsame.le.trans h⟩
        · refine ⟨?_, fun _ => hcounts.le.trans hbounded⟩
          obtain ⟨read, next', current, hp, hcurrent, hattempt⟩ := hcurrent
          obtain ⟨rfl, -⟩ := Program.transact.inj hp
          obtain ⟨rfl, rfl⟩ := moves.keys_of_lease
          cases hcurrent.symm.trans hrow
          have hafter := Option.some.inj (after.symm.trans (ClaimLease.row_operations ha hrow))
          rw [hafter, hattempt]
          exact ClaimLease.le_attempt read
      · exact ⟨row, (others (.command conversation key) ⟨trivial, hkey⟩).trans hrow, .refl row, le_rfl, id⟩

theorem LifecycleInv.commit {next : Bool → Program Key Row (Except Raised CommandAnswer)}
    (h : LifecycleInv t w g) (hi : g i = some c) (hops : c.Transaction ops)
    (ha : w.table.Admits ops) (hcurrent : ClaimsCurrent c (.transact ops next) w.table) :
    LifecycleInv t (w.commit i c ops) g := by
  have hchange := hops.change ha
  have hnow := h.clocks i c hi
  have hheld : ∀ conversation key, ∃ holder, HeldBy (w.commit i c ops) conversation key holder :=
    fun conversation key => by
      obtain ⟨holder, hholder⟩ := h.held conversation key
      exact hchange.heldBy hnow hholder
  refine ⟨⟨.refl _ _, ?_, ?_, ?_, ?_⟩, h.clocks, hheld⟩
  · refine List.forall_mem_cons.mpr ⟨fun conversation key row hrow => ?_, h.follows⟩
    obtain ⟨row', hrow', hfollows, hle, -⟩ := hchange.follows ha hcurrent hrow
    exact ⟨row', hrow', hfollows, hle⟩
  · intro conversation key row' hrow'
    cases hrow : w.table.row (.command conversation key) with
    | some row =>
        obtain ⟨row'', hrow'', -, -, hbound⟩ := hchange.follows ha hcurrent hrow
        cases hrow'.symm.trans hrow''
        exact hbound (h.attempts conversation key row hrow)
    | none =>
        -- Only a claim of the command itself puts one, and it has not been tried.
        cases hchange with
        | created r expectedCounter call absent stored others =>
            by_cases hkey : Key.command conversation key =
                .command r.command.conversationId r.command.idempotencyKey
            · cases hkey
              cases hrow'.symm.trans stored
              exact Nat.zero_le _
            · cases hrow'.symm.trans ((others (.command conversation key) ⟨trivial, hkey⟩).trans hrow)
        | updated conversation' key' u stored moves before admitted after others =>
            have hkey : Key.command conversation key ≠ .command conversation' key' := fun he => by
              cases he
              cases before.symm.trans hrow
            cases hrow'.symm.trans ((others (.command conversation key) ⟨trivial, hkey⟩).trans hrow)
  · intro conversation key owner owner' ho ho'
    obtain ⟨holder, hholder⟩ := hheld conversation key
    exact hholder.one ho ho'
  · intro later e earlier r hsplit hr owner
    cases later with
    | nil =>
        obtain ⟨rfl, rfl⟩ := List.cons.inj hsplit
        cases hr
        obtain ⟨holder, hholder⟩ := h.held r.conversationId r.idempotencyKey
        exact hchange.free_of_lease (hnow r.nowEpoch rfl) hholder owner
    | cons e' later => exact h.claimed later e earlier r (List.cons.inj hsplit).2 hr owner

theorem LifecycleInv.drift (h : LifecycleInv t w g) {u : Table Key Row}
    (hdrift : u.AgreesOn IsCommandRow w.table) : LifecycleInv t { w with table := u } g where
  committed := hdrift.trans h.committed
  follows := h.follows
  attempts := fun conversation key row hrow =>
    h.attempts conversation key row ((hdrift (.command conversation key) trivial).symm.trans hrow)
  one_lease := h.one_lease
  claimed := h.claimed
  clocks := h.clocks
  held := fun conversation key => by
    have hsame : u.row (.command conversation key) = w.table.row (.command conversation key) :=
      hdrift (.command conversation key) trivial
    obtain ⟨holder, hholder⟩ := h.held conversation key
    exact ⟨holder, hholder.others, fun row hrow => hholder.running row (hsame ▸ hrow),
      fun hfree => hholder.free fun row hrow => hfree row (hsame.trans hrow)⟩

theorem LifecycleInv.tick (h : LifecycleInv t w g) {n : ℕ} (hn : w.clock ≤ n) :
    LifecycleInv t { w with clock := n } g where
  committed := h.committed
  follows := h.follows
  attempts := h.attempts
  one_lease := fun conversation key owner owner' ho ho' =>
    h.one_lease conversation key owner owner' (ho.mono hn) (ho'.mono hn)
  claimed := h.claimed
  clocks := fun i c hi now hnow => (h.clocks i c hi now hnow).trans hn
  held := fun conversation key => by
    obtain ⟨holder, hholder⟩ := h.held conversation key
    exact ⟨holder, fun owner hne ho => hholder.others owner hne (ho.mono hn), hholder.running,
      fun hfree ho => hholder.free hfree (ho.mono hn)⟩

theorem LifecycleInv.initial (hempty : ∀ conversation key, t.row (.command conversation key) = none) :
    LifecycleInv t ⟨t, 0, []⟩ fun _ => none where
  committed := .refl _ _
  follows := by simp
  attempts := fun conversation key row hrow => by simp [hempty] at hrow
  one_lease := by
    rintro conversation key owner owner' ⟨until_, hend, -⟩
    cases hend
  claimed := by simp
  clocks := by simp
  held := by
    refine fun conversation key => ⟨"", ?_, fun row hrow => by simp [hempty] at hrow, ?_⟩
    · rintro owner - ⟨until_, hend, -⟩
      cases hend
    · rintro - ⟨until_, hend, -⟩
      cases hend

end

/-- In every run whose claims count from the stored attempt. -/
theorem lifecycle {faults : Faults} {t : Table Key Row}
    {s : State Key Row CommandCall (Except Raised CommandAnswer)}
    (hempty : ∀ conversation key, t.row (.command conversation key) = none)
    (h : StepsMeeting (commandService faults) ClaimsCurrent (.initial t) s) :
    Lifecycle t s.view := by
  obtain ⟨g, hg⟩ := h.kept (Φ := LifecycleInv t) (Q := fun _ _ _ => True)
    (LifecycleInv.initial hempty)
    (fun w g i hw => { hw with
      clocks := fun j c hj => by
        by_cases hji : j = i
        · simp [hji] at hj
        · exact hw.clocks j c (by rwa [Function.update_of_ne hji] at hj) })
    (fun w g u hw hdrift => hw.drift hdrift)
    (fun w g n hw hn => hw.tick hn)
    (fun c w g i hw _ _ hc => ⟨c, { hw with
      clocks := fun j d hj => by
        by_cases hji : j = i
        · rw [hji, Function.update_self] at hj
          cases hj
          exact hc
        · exact hw.clocks j d (by rwa [Function.update_of_ne hji] at hj) },
      c.submits.keeps (fun _ => trivial) fun ops next w g hops hw hi ha hcurrent => hw.commit hi hops ha hcurrent⟩)
  exact hg.holds.toLifecycle

/-! ## Claims that run alone, and one that does not -/

theorem ClaimLease.readOnly_reread (r : ClaimLease) : r.reread.run.ReadOnly := by
  refine RowStore.Handler.readOnly_bind RowStore.Handler.readOnly_get fun row => ?_
  split
  · trivial
  · split <;> trivial

/-- A claim that runs alone counts from the stored attempt. -/
theorem ClaimLease.aloneMeets (r : ClaimLease) (t : Table Key Row) :
    (CommandCall.lease r).handler.run.AloneMeets (ClaimsCurrent (.lease r)) t := by
  refine Program.aloneMeets_bind (p := (claimMessageAiLease r).run) ?_ ?_
  · refine Program.aloneMeets_bind ?_ ?_
    · refine RowStore.Handler.aloneMeets_get_bind ?_
      cases hrow : t.row (.command r.conversationId r.idempotencyKey) with
      | none => trivial
      | some command =>
          dsimp only
          split
          · trivial
          · split
            · trivial
            · refine ⟨fun _ => ⟨⟨command, _, command, rfl, hrow, rfl⟩, trivial⟩, fun _ => ?_⟩
              show Program.AloneMeets _ (ExceptT.run (if r.conditional then r.reread else _)) _
              split
              · exact (Program.ReadOnly.aloneMeets r.readOnly_reread _).1
              · trivial
    · split <;> trivial
  · split <;> trivial

namespace LifecycleSample

def identity : CommandIdentity where
  commandId := "command"
  conversationId := "conversation"
  ownerId := "student"
  idempotencyKey := "key"
  fingerprint := "fingerprint"
  accountFenceGeneration := 1
  studentMessageId := "question"
  assistantMessageId := "answer"
  usageAction := "ask_question"
  usageResourceId := "resource"
  usageIdempotencyKey := "usage"
  usageEventId := "event"
  quotaPeriod := "2026-03-01"
  counterValue := 1
  createdAt := 0
  rowExpiresAt := 172800
  allowance := ⟨"effect", "plan", "grant", 1, "2026-W09"⟩
  generationContext := none

def start : Table Key Row := Table.empty.apply [.putNew (.accountFence "student") ⟨"active", some 1⟩]

theorem start_noCommands (conversation key : String) : start.row (.command conversation key) = none := by
  rw [start, Table.row_apply_of_notMem _ _ _ (by simp [Write.putNew, Write.put])]
  rfl

def claim : ClaimCommand := ⟨identity, 10, true⟩

def message : CommitMessage where
  command := claim.item 0
  ownerId := "student"
  message := fun generation => ⟨"conversation", "question", "student", generation, "user", "?", 0, none, none, none⟩
  attachments := []
  now := 1

def lease (owner : String) : ClaimLease :=
  ⟨"conversation", "key", "student", owner, 0, 900, some 1, true⟩

def failure (owner : String) (attempt : ℕ) : CommandCall :=
  .fail ⟨"conversation", "key", "student", owner, attempt⟩ ⟨"provider_error", true, 2⟩ true

abbrev Run := State Key Row CommandCall (Except Raised CommandAnswer)

def service : Service Key Row CommandCall (Except Raised CommandAnswer) :=
  commandService .strongReads

/-- The question has been committed. -/
def asked : Run := ((State.initial start).solo service (.claim claim) []).solo service (.commit message) []

/-- Between the read and the write of the first claim, two others are made and
their attempts fail. -/
def overtaken : Run :=
  (((((asked.launch service (.lease (lease "first"))).advance 2 1).solo service
    (.lease (lease "second")) []).solo service (failure "second" 1) []).solo service
      (.lease (lease "third")) []).solo service (failure "third" 2) [] |>.advance 2 3

theorem solo_steps {s : Run} {c : CommandCall} (hc : ∀ now ∈ c.nowEpoch, now = 0) :
    Steps service s (s.solo service c []) :=
  State.solo_steps (S := service) trivial trivial
    (fun now hnow => (hc now hnow).le.trans (Nat.zero_le _)) []

theorem asked_reachable : Reachable service start asked :=
  .trans (solo_steps (by rintro _ ⟨⟩)) (solo_steps (by rintro _ ⟨⟩))

theorem overtaken_reachable : Reachable service start overtaken := by
  have hlease : ∀ owner, ∀ now ∈ (CommandCall.lease (lease owner)).nowEpoch, now = 0 := by
    rintro owner _ ⟨⟩
    rfl
  refine asked_reachable.trans (.trans (State.launch_steps ?_) (.trans (State.advance_steps 2 1 _)
    (.trans (solo_steps (hlease "second")) (.trans (solo_steps (by rintro _ ⟨⟩))
      (.trans (solo_steps (hlease "third")) (.trans (solo_steps (by rintro _ ⟨⟩))
        (State.advance_steps 2 3 _)))))))
  exact fun now hnow => (hlease "first" now hnow).le.trans (Nat.zero_le _)

/-- One question, and one lease claimed on it. -/
def answering : Run := asked.solo service (.lease (lease "first")) []

theorem answering_meeting : StepsMeeting service ClaimsCurrent (.initial start) answering := by
  have halways : ∀ c, (∀ p t, ClaimsCurrent c p t) → ∀ t, (service.body c).AloneMeets (ClaimsCurrent c) t :=
    fun c h t => Program.aloneMeets_of_forall h _ t
  refine StepsMeeting.solo (.solo (.solo .refl (by rintro _ ⟨⟩) ?_) (by rintro _ ⟨⟩) ?_) ?_
    (ClaimLease.aloneMeets _ _)
  · exact halways (.claim claim) (fun _ _ => trivial) _
  · exact halways (.commit message) (fun _ _ => trivial) _
  · rintro _ ⟨⟩
    exact Nat.zero_le _

end LifecycleSample

theorem lifecycle_sample : Lifecycle LifecycleSample.start LifecycleSample.answering.view ∧
    LifecycleSample.answering.history.length = 3 :=
  ⟨lifecycle LifecycleSample.start_noCommands LifecycleSample.answering_meeting, by decide +kernel⟩

/-- A claim that counts from an older attempt takes the count back. -/
theorem attempt_decreases : ∃ s, Reachable LifecycleSample.service LifecycleSample.start s ∧
    (∀ conversation key, LifecycleSample.start.row (.command conversation key) = none) ∧
    s.history.head?.map (fun e =>
      ((e.before.row (.command "conversation" "key")).map CommandRow.attempt,
        (e.after.row (.command "conversation" "key")).map CommandRow.attempt)) =
      some (some 2, some 1) :=
  ⟨LifecycleSample.overtaken, LifecycleSample.overtaken_reachable, LifecycleSample.start_noCommands,
    by decide +kernel⟩

end Stoa.AskQuestion
