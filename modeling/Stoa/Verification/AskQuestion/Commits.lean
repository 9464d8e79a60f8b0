import Stoa.Model.MessageCommand
import Stoa.Store.Auxiliary

/-! # What is committed to a command

A command is put once, when it is claimed. After that every transaction makes at
most one update of at most one command, and it is one of twelve. -/

namespace Stoa.AskQuestion

open RowStore

/-! ## Updates -/

/-- The update that a call makes of a command. -/
inductive Moves : CommandCall → String → String → Update → Prop
  | commit (r : CommitMessage) :
      Moves (.commit r) r.command.conversationId r.command.idempotencyKey r.update
  | lease (r : ClaimLease) (command : CommandRow)
      (bounded : ClaimLease.attempt command ≤ MESSAGE_AI_MAX_ATTEMPTS) :
      Moves (.lease r) r.conversationId r.idempotencyKey (r.update command)
  | invoke (h : Holder) (nowEpoch : ℕ) (conditional : Conditional) :
      Moves (.invoke h nowEpoch conditional) h.conversationId h.idempotencyKey (h.invocation nowEpoch)
  | keep (h : Holder) (nowEpoch : ℕ) (resultJson : KeptResult) (conditional : Conditional) :
      Moves (.keep h nowEpoch resultJson conditional) h.conversationId h.idempotencyKey
        (h.result nowEpoch resultJson)
  | renew (r : RenewLease) : Moves (.renew r) r.conversationId r.idempotencyKey r.update
  | complete (r : Completion) :
      Moves (.complete r) r.holder.conversationId r.holder.idempotencyKey r.update
  | fail (h : Holder) (f : Failure) (conditional : Conditional) :
      Moves (.fail h f conditional) h.conversationId h.idempotencyKey (h.failure f)
  | reopen (r : Reopen) : Moves (.reopen r) r.conversationId r.idempotencyKey r.update
  | markTerminal (r : MarkTerminal) : Moves (.markTerminal r) r.conversationId r.idempotencyKey r.update
  | closeStale (r : StaleLease) : Moves (.closeStale r) r.conversationId r.idempotencyKey r.update
  | closeFailure (r : Ended) : Moves (.closeFailure r) r.conversationId r.idempotencyKey r.close
  | settle (r : Ended) (now : Instant) :
      Moves (.settle r now) r.conversationId r.idempotencyKey (r.settle now)
  | reject (r : RejectCommand) : Moves (.reject r) r.conversationId r.idempotencyKey r.update

/-- The transaction makes the update, and leaves all other rows of a part of the
table alone. -/
structure Contains (part : Key → Prop) (ops : List (Write Key Row)) (conversation key : String)
    (u : Update) : Prop where
  mem : u.write conversation key ∈ ops
  others : ∀ w ∈ ops, w = u.write conversation key ∨ ¬ part w.key

inductive CommandCall.Transaction : CommandCall → List (Write Key Row) → Prop
  | created (r : ClaimCommand) (expectedCounter : ℕ) (limited : expectedCounter < r.limit) :
      Transaction (.claim r) (r.operations expectedCounter)
  | updated {c : CommandCall} {conversation key : String} {u : Update} {ops : List (Write Key Row)}
      (moves : Moves c conversation key u) (contains : Contains IsQuotaRow ops conversation key u) :
      Transaction c ops
  /-- The rejection also gives the message back. -/
  | rejected (r : RejectCommand) (command : CommandRow) :
      Transaction (.reject r) (r.operations command)

theorem IsCommandRow.isQuotaRow {k : Key} (h : IsCommandRow k) : IsQuotaRow k := by
  cases k <;> trivial

theorem Contains.mono {part part' : Key → Prop} {ops : List (Write Key Row)}
    {conversation key : String} {u : Update} (h : Contains part ops conversation key u)
    (hpart : ∀ k, part' k → part k) : Contains part' ops conversation key u where
  mem := h.mem
  others := fun w hw => (h.others w hw).imp_right fun hn hp => hn (hpart w.key hp)

theorem Contains.single {part : Key → Prop} (conversation key : String) (u : Update) :
    Contains part [u.write conversation key] conversation key u where
  mem := List.mem_cons_self ..
  others := fun _ hw => .inl (List.mem_singleton.mp hw)

theorem Contains.fenced {owner : String} {generation : ℤ} (conversation key : String) (u : Update) :
    Contains IsQuotaRow [fenceCheck owner generation, u.write conversation key] conversation key u where
  mem := List.mem_cons_of_mem _ (List.mem_cons_self ..)
  others := by
    intro w hw
    rcases List.mem_pair.mp hw with rfl | rfl
    · exact .inr id
    · exact .inl rfl

theorem CommitMessage.contains (r : CommitMessage) (generation : ℤ) :
    Contains IsQuotaRow (r.operations generation) r.command.conversationId r.command.idempotencyKey r.update where
  mem := by simp [operations, messageCommittedOperations]
  others := by
    intro w hw
    simp only [operations, messageCommittedOperations, List.mem_cons, List.mem_append,
      List.mem_map, List.not_mem_nil, or_false] at hw
    rcases hw with rfl | rfl | ⟨a, -, rfl⟩ | rfl | rfl
    · exact .inr id
    · exact .inr id
    · exact .inr id
    · exact .inr id
    · exact .inl rfl

theorem Completion.contains (r : Completion) (gaps : List (String × String)) :
    Contains IsQuotaRow (r.operations gaps) r.holder.conversationId r.holder.idempotencyKey
      r.update where
  mem := by simp [operations]
  others := by
    intro w hw
    simp only [operations, List.cons_append, List.nil_append, List.mem_cons, List.mem_append,
      List.mem_map] at hw
    rcases hw with rfl | rfl | rfl | ⟨gap, -, rfl⟩ | ⟨record, -, rfl⟩
    · exact .inr id
    · exact .inr id
    · exact .inl rfl
    · exact .inr id
    · exact .inr id

theorem RejectCommand.contains (r : RejectCommand) (command : CommandRow) :
    Contains IsCommandRow (r.operations command) r.conversationId r.idempotencyKey r.update where
  mem := by simp [operations]
  others := by
    intro w hw
    simp only [operations, List.mem_cons, List.not_mem_nil, or_false] at hw
    rcases hw with rfl | rfl | rfl
    · exact .inl rfl
    · exact .inr id
    · exact .inr id

/-! ## What the calls submit -/

section

open RowStore.Handler

variable {c : CommandCall} {α : Type} {T : List (Write Key Row) → Prop}

theorem submits_attemptOr {x : Handler α} {f : Raised → Handler α} (hx : x.run.Submits T)
    (hf : ∀ e, (f e).run.Submits T) : (attemptOr x f).run.Submits T :=
  submits_tryCatch hx hf

theorem submits_command {conversation key : String} {u : Update} {conditional : Conditional}
    (h : Moves c conversation key u) :
    (updateCommand conversation key u conditional).run.Submits c.Transaction := by
  refine submits_submit_bind (.updated h (.single conversation key u)) fun done => ?_
  cases done <;> cases conditional <;> trivial

theorem submits_getMessageCommand {conversation key : String} :
    (getMessageCommand conversation key).run.Submits T :=
  submits_get

theorem submits_readMessageCommandResult {conversation key owner fingerprint : String}
    {nowEpoch : ℕ} :
    (readMessageCommandResult conversation key owner fingerprint nowEpoch).run.Submits T :=
  submits_bind (submits_attemptOr submits_get fun _ => trivial) fun _ => trivial

theorem ClaimCommand.submits_raced (r : ClaimCommand) : r.raced.run.Submits T := by
  refine submits_bind submits_readMessageCommandResult fun result => ?_
  split
  · trivial
  · split <;> trivial

theorem ClaimCommand.submits_round (r : ClaimCommand) :
    r.round.run.Submits (CommandCall.claim r).Transaction := by
  refine submits_bind (submits_attemptOr submits_get fun _ => trivial) fun counter => ?_
  dsimp only
  split
  · exact submits_bind r.submits_raced fun _ => trivial
  · rename_i hlimit
    refine submits_submit_bind (.created r _ (not_le.mp hlimit)) fun done => ?_
    cases done with
    | true => trivial
    | false =>
        simp only [Bool.false_eq_true, ↓reduceIte]
        split
        · trivial
        · exact submits_bind r.submits_raced fun _ => trivial

theorem ClaimCommand.submits_rounds (r : ClaimCommand) (n expected : ℕ) :
    (r.rounds expected n).run.Submits (CommandCall.claim r).Transaction := by
  induction n generalizing expected with
  | zero => trivial
  | succ n ih =>
      refine submits_bind r.submits_round fun result => ?_
      cases result with
      | inl expected => exact ih expected
      | inr result => trivial

theorem submits_claimMessageCommandAndQuota (r : ClaimCommand) :
    (claimMessageCommandAndQuota r).run.Submits (CommandCall.claim r).Transaction := by
  refine submits_bind submits_readMessageCommandResult fun existing => ?_
  split
  · trivial
  · exact r.submits_rounds 3 0

theorem submits_commitMessage (r : CommitMessage) :
    (commitMessage r).run.Submits (CommandCall.commit r).Transaction := by
  refine submits_bind submits_get fun fence => ?_
  split
  · trivial
  · rename_i generation _
    refine submits_submit_bind (.updated (.commit r) (r.contains generation)) fun done => ?_
    cases done <;> trivial

theorem submits_rejectMessageCommandAndCompensate (r : RejectCommand) :
    (rejectMessageCommandAndCompensate r).run.Submits (CommandCall.reject r).Transaction := by
  refine submits_attemptOr (submits_bind submits_get fun row => ?_) fun _ => trivial
  dsimp only
  split
  · rename_i command _ _
    refine submits_submit_bind (.rejected r command) fun done => ?_
    cases done with
    | true => trivial
    | false =>
        refine submits_bind submits_getMessageCommand fun reread => ?_
        dsimp only
        split <;> trivial
  · trivial

theorem submits_claimMessageAiLease (r : ClaimLease) :
    (claimMessageAiLease r).run.Submits (CommandCall.lease r).Transaction := by
  refine submits_attemptOr (submits_bind submits_getMessageCommand fun row => ?_) fun _ => trivial
  split
  · trivial
  · rename_i command
    split
    · trivial
    · split
      · trivial
      · rename_i hclaim
        have hbounded := not_lt.mp (not_or.mp hclaim).2
        refine submits_submit_bind (.updated (.lease r command hbounded) (.fenced _ _ _))
          fun done => ?_
        cases done with
        | true => trivial
        | false =>
            simp only [Bool.false_eq_true, ↓reduceIte]
            split
            · refine submits_bind submits_getMessageCommand fun reread => ?_
              split
              · trivial
              · split <;> trivial
            · trivial

theorem submits_renewMessageAiLease (r : RenewLease) :
    (renewMessageAiLease r).run.Submits (CommandCall.renew r).Transaction := by
  refine submits_submit_bind (.updated (.renew r) (.fenced _ _ _)) fun done => ?_
  cases done with
  | true => trivial
  | false =>
      simp only [Bool.false_eq_true, ↓reduceIte]
      split <;> trivial

theorem Completion.submits_reread (r : Completion) : r.reread.run.Submits T := by
  refine submits_attemptOr (submits_bind submits_getMessageCommand fun row => ?_) fun _ => trivial
  split
  · split <;> trivial
  · trivial

theorem submits_completeMessageCommand (r : Completion) :
    (completeMessageCommand r).run.Submits (CommandCall.complete r).Transaction := by
  unfold completeMessageCommand
  split
  · trivial
  · refine submits_submit_bind (.updated (.complete r) (r.contains _)) fun done => ?_
    cases done with
    | true => trivial
    | false =>
        refine submits_bind r.submits_reread fun result => ?_
        split
        · trivial
        · split
          · trivial
          · refine submits_submit_bind (.updated (.complete r) (r.contains _)) fun done => ?_
            cases done with
            | true => trivial
            | false => exact submits_bind r.submits_reread fun _ => trivial

theorem submits_markMessageCommandTerminal (r : MarkTerminal) :
    (markMessageCommandTerminal r).run.Submits (CommandCall.markTerminal r).Transaction := by
  refine submits_submit_bind (.updated (.markTerminal r) (.single _ _ _)) fun done => ?_
  cases done with
  | true => trivial
  | false =>
      simp only [Bool.false_eq_true, ↓reduceIte]
      split
      · refine submits_attemptOr (submits_bind submits_getMessageCommand fun row => ?_) fun _ => trivial
        split
        · trivial
        · split <;> trivial
      · trivial

theorem CommandCall.submits (c : CommandCall) : c.handler.run.Submits c.Transaction := by
  cases c with
  | claim r => exact submits_map (submits_claimMessageCommandAndQuota r)
  | commit r => exact submits_map (submits_commitMessage r)
  | lease r => exact submits_map (submits_claimMessageAiLease r)
  | invoke h nowEpoch conditional => exact submits_map (submits_command (.invoke h nowEpoch conditional))
  | keep h nowEpoch resultJson conditional =>
      exact submits_map (submits_command (.keep h nowEpoch resultJson conditional))
  | renew r => exact submits_map (submits_renewMessageAiLease r)
  | complete r => exact submits_map (submits_completeMessageCommand r)
  | fail h f conditional => exact submits_map (submits_command (.fail h f conditional))
  | reopen r => exact submits_map (submits_command (.reopen r))
  | markTerminal r => exact submits_map (submits_markMessageCommandTerminal r)
  | closeStale r => exact submits_map (submits_command (.closeStale r))
  | closeFailure r => exact submits_map (submits_command (.closeFailure r))
  | settle r now => exact submits_map (submits_command (.settle r now))
  | reject r => exact submits_map (submits_rejectMessageCommandAndCompensate r)

end

/-! ## What a commit does to the commands -/

inductive CommandCall.Change (c : CommandCall) (t t' : Table Key Row) : Prop where
  /-- A command is put where none is. -/
  | created (r : ClaimCommand) (expectedCounter : ℕ) (call : c = .claim r)
      (absent : t.row (.command r.command.conversationId r.command.idempotencyKey) = none)
      (stored : t'.row (.command r.command.conversationId r.command.idempotencyKey) =
        some (r.item expectedCounter))
      (others : t'.AgreesOn (fun k => IsCommandRow k ∧
        k ≠ .command r.command.conversationId r.command.idempotencyKey) t)
  /-- A command is updated as the call updates it. -/
  | updated (conversation key : String) (u : Update) (row : CommandRow)
      (moves : Moves c conversation key u)
      (before : t.row (.command conversation key) = some row)
      (admitted : u.condition row)
      (after : t'.row (.command conversation key) = some (u.change row))
      (others : t'.AgreesOn (fun k => IsCommandRow k ∧ k ≠ .command conversation key) t)

/-- A transaction that contains the update of a call. -/
theorem Contains.change {c : CommandCall} {conversation key : String} {u : Update}
    {ops : List (Write Key Row)} {t : Table Key Row} (h : Contains IsCommandRow ops conversation key u)
    (moves : Moves c conversation key u) (ha : t.Admits ops) : c.Change t (t.apply ops) := by
  obtain ⟨row, hrow, hcond⟩ := (Option.any_eq_true _ _).mp (ha.2 _ h.mem)
  refine .updated conversation key u row moves hrow hcond ?_
    (Table.AgreesOn.apply_outside t fun w hw hpart => ?_)
  · exact (t.row_apply_of_mem ha.1 h.mem).trans (congrArg (Option.map u.change) hrow)
  · rcases h.others w hw with rfl | hother
    · exact hpart.2 rfl
    · exact hother hpart.1

theorem CommandCall.Transaction.change {c : CommandCall} {ops : List (Write Key Row)}
    {t : Table Key Row} (h : c.Transaction ops) (ha : t.Admits ops) : c.Change t (t.apply ops) := by
  cases h with
  | created r expectedCounter limited =>
      have hput : Write.putNew (.command r.command.conversationId r.command.idempotencyKey)
          (r.item expectedCounter) ∈ r.operations expectedCounter := by
        simp [ClaimCommand.operations]
      refine .created r expectedCounter rfl (Option.isNone_iff_eq_none.mp (ha.2 _ hput))
        (t.row_apply_of_mem ha.1 hput) (Table.AgreesOn.apply_outside t fun w hw => ?_)
      simp only [ClaimCommand.operations, List.mem_cons, List.not_mem_nil, or_false] at hw
      rcases hw with rfl | rfl | rfl | rfl
      · exact fun hpart => hpart.1
      · exact fun hpart => hpart.2 rfl
      · exact fun hpart => hpart.1
      · exact fun hpart => hpart.1
  | updated moves contains => exact (contains.mono fun _ => IsCommandRow.isQuotaRow).change moves ha
  | rejected r command => exact (r.contains command).change (.reject r) ha

end Stoa.AskQuestion
