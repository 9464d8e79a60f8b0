import Stoa.Verification.AccountDeletion.Commands

/-! # The workers of a deletion command

Each of the four writes of a worker is a change of its own kind. After it the
worker knows the row that it wrote, and every later write goes through only while
that row is still there. -/

namespace Stoa.AccountDeletion

open RowStore

variable {lib : Library} {inventory : Seal}

/-! ## Arguments -/

theorem positiveInt_eq_ok {value : ℤ} {field : String} {n : ℤ} :
    positiveInt (some value) field = .ok n ↔ n = value ∧ 0 < value := by
  by_cases hpositive : 0 < value
  · simp [positiveInt, hpositive, eq_comm]
  · simp [positiveInt, hpositive]

theorem required_trimmed {text name : String} (h : Trimmed text) :
    required (some text) name = .ok text := by
  simp [required, h.2, h.1]

theorem claimFromCommand_eq_ok {row : CommandRow} {claim : DeletionCommandClaim} {n : ℤ}
    (h : claimFromCommand row = .ok claim) (hid : Trimmed row.commandId)
    (hn : row.commandVersion = some n) :
    claim.commandId = row.commandId ∧ claim.commandVersion = n := by
  unfold claimFromCommand at h
  obtain ⟨owner, -, h⟩ := bind_eq_ok.mp h
  obtain ⟨digest, -, h⟩ := bind_eq_ok.mp h
  split at h
  · cases h
  · rw [required_trimmed hid] at h
    obtain ⟨-, -, h⟩ := bind_eq_ok.mp h
    obtain ⟨commandId, hcommandId, h⟩ := bind_eq_ok.mp h
    obtain ⟨generation, -, h⟩ := bind_eq_ok.mp h
    obtain ⟨expiry, -, h⟩ := bind_eq_ok.mp h
    obtain ⟨version, hversion, h⟩ := bind_eq_ok.mp h
    cases h
    cases hcommandId
    rw [hn, Option.getD_some] at hversion
    exact ⟨rfl, (positiveInt_eq_ok.mp hversion).1⟩

/-! ## The four writes -/

theorem admits_modify {t : Table Key Row} {k : Key} {change : Row k → Row k} {condition : Row k → Bool}
    (h : t.Admits [.modify k change condition]) : ∃ row, t.row k = some row ∧ condition row = true ∧
      (t.apply [.modify k change condition]).row k = some (change row) ∧
      ∀ j, j ≠ k → (t.apply [.modify k change condition]).row j = t.row j := by
  have hcondition : (t.row k).any condition = true := h.2 _ (List.mem_singleton_self _)
  have hafter : (t.apply [.modify k change condition]).row k = (t.row k).map change :=
    Table.row_apply_of_mem t h.1 (List.mem_singleton_self _)
  cases hrow : t.row k with
  | none =>
      rw [hrow] at hcondition
      cases hcondition
  | some row =>
      rw [hrow] at hcondition hafter
      refine ⟨row, rfl, hcondition, hafter, fun j hj => ?_⟩
      refine Table.row_apply_of_notMem t _ j fun write hwrite => ?_
      rw [List.mem_singleton.mp hwrite]
      exact hj

section

variable {w : Worker} {v : View Key Row Worker} {g : ℕ → Option Tenure} {i : ℕ}
  {claim : DeletionCommandClaim}

theorem CommandRow.claimable_iff {row : CommandRow} {generation now : ℤ} :
    row.claimable generation now = true ↔ row.generation = generation ∧
      (row.status = .pending ∨ row.status = .running ∧ row.leaseExpiresAt.any (· < now) = true) := by
  simp [CommandRow.claimable]

theorem CommandRow.claimedBy_iff {row : CommandRow} {now : ℤ} :
    row.claimedBy claim now = true ↔ row.status = .running ∧ row.generation = claim.generation ∧
      row.leaseOwner = claim.leaseOwner ∧ row.commandVersion = claim.commandVersion ∧
      row.branchResultsDigest = claim.branchResultsDigest ∧
      row.leaseExpiresAt.any (now ≤ ·) = true := by
  simp [CommandRow.claimedBy]

theorem CommandRow.leasedAt_of_any {row : CommandRow} {now : ℤ}
    (h : row.leaseExpiresAt.any (now ≤ ·) = true) : row.LeasedAt now := by
  cases hexpiry : row.leaseExpiresAt with
  | none =>
      rw [hexpiry] at h
      cases h
  | some expiry =>
      rw [hexpiry] at h
      exact ⟨expiry, hexpiry, by simpa using h⟩

theorem CommandRow.not_leasedAt_of_any {row : CommandRow} {now : ℤ}
    (h : row.leaseExpiresAt.any (· < now) = true) : ¬ row.LeasedAt now := by
  rintro ⟨expiry, hexpiry, hle⟩
  rw [hexpiry] at h
  have hlt : expiry < now := by simpa using h
  omega

/-- A claim. -/
theorem claim_change {owner now : String} {initial : ℤ} (hg : DeletionSound lib inventory v g)
    {expected : Option ℤ}
    (ha : v.table.Admits [.modify w.key
      (fun stored : CommandRow => stored.claimed lib owner w.leaseExpiresAt initial now)
      fun stored : CommandRow => stored.claimable w.generation w.nowEpoch &&
        stored.commandVersion == expected]) :
    ∃ row : CommandRow, v.table.row w.key = some row ∧ row.commandVersion = expected ∧
      Change lib inventory .claim w v.table (v.table.apply [.modify w.key
        (fun stored : CommandRow => stored.claimed lib owner w.leaseExpiresAt initial now)
        fun stored : CommandRow => stored.claimable w.generation w.nowEpoch &&
          stored.commandVersion == expected]) row
        (row.claimed lib owner w.leaseExpiresAt initial now) := by
  obtain ⟨row, hrow, hcondition, hafter, hothers⟩ := admits_modify ha
  obtain ⟨hclaimable, hexpected⟩ := Bool.and_eq_true_iff.mp hcondition
  obtain ⟨-, hfree⟩ := CommandRow.claimable_iff.mp hclaimable
  have hopen : row.status ≠ .complete := by
    rcases hfree with hpending | ⟨hrunning, -⟩
    · rw [hpending]
      decide
    · rw [hrunning]
      decide
  have horder := hg.inOrder _ _ row hrow
  obtain ⟨huser, results, hresults, hdigest⟩ := horder.unfinished hopen
  obtain ⟨n, hn⟩ := Option.isSome_iff_exists.mp horder.numbered
  refine ⟨row, hrow, eq_of_beq hexpected, hrow, hafter, fun k hk _ => hothers k hk, ⟨n, hn, ?_⟩, hopen, rfl,
    ⟨horder.id, horder.trimmed, rfl, fun _ => ⟨huser, results, ?_, ?_⟩⟩, ?_, ?_, rfl⟩
  · simp [CommandRow.claimed, hn]
  · simp [CommandRow.claimed, hresults]
  · simp [CommandRow.claimed, hdigest]
  · exact hfree.imp_right fun hlapsed => ⟨hlapsed.1, CommandRow.not_leasedAt_of_any hlapsed.2⟩
  · simp [CommandRow.claimed, hresults]

/-- What a worker that holds a row meets when its claim is still good. -/
theorem Tenure.Sound.current {x : Tenure} {row now : CommandRow}
    (hx : x.Sound lib inventory v i row) (hnow : v.table.row x.key = some now)
    (hclaim : row.commandVersion = some claim.commandVersion)
    (hversion : now.commandVersion = some claim.commandVersion) :
    now = row ∧ Latest lib inventory v.history i x.key := by
  obtain ⟨stored, hstored, -, hsame⟩ := hx.stored
  cases hstored.symm.trans hnow
  exact hsame (by simp [CommandRow.number, hclaim, hversion])

/-- A renewal. -/
theorem renewal_change {branchId now : String} {expiry : ℤ} {row : CommandRow} {own : Option CommandRow}
    (hg : DeletionSound lib inventory v g)
    (hx : Tenure.Sound lib inventory v i ⟨w.userId, w.commandId, own⟩ row)
    (hclaim : row.commandVersion = some claim.commandVersion)
    (ha : v.table.Admits [.modify w.key (fun stored : CommandRow => stored.renewed expiry now)
      fun stored : CommandRow => stored.claimedBy claim (w.turn branchId).renewalEpoch]) :
    Latest lib inventory v.history i w.key ∧
      Change lib inventory (.renewal branchId) w v.table (v.table.apply [.modify w.key
        (fun stored : CommandRow => stored.renewed expiry now)
        fun stored : CommandRow => stored.claimedBy claim (w.turn branchId).renewalEpoch]) row
        (row.renewed expiry now) := by
  obtain ⟨stored, hstored, hcondition, hafter, hothers⟩ := admits_modify ha
  obtain ⟨hstatus, -, -, hversion, -, hlease⟩ := CommandRow.claimedBy_iff.mp hcondition
  obtain ⟨rfl, hlatest⟩ := hx.current hstored hclaim hversion
  have hopen : stored.status ≠ .complete := by
    rw [hstatus]
    decide
  have horder := hg.inOrder _ _ stored hstored
  refine ⟨hlatest, hstored, hafter, fun k hk _ => hothers k hk, ⟨_, hversion, ?_⟩, hopen, hstatus,
    ⟨horder.id, horder.trimmed, ?_, fun _ => horder.unfinished hopen⟩,
    CommandRow.leasedAt_of_any hlease, rfl⟩
  · simp [CommandRow.renewed, hversion]
  · simp [CommandRow.renewed, hversion]

theorem copiedResults_eq_ok {results copied : Results} (h : copiedResults results = .ok copied) :
    copied = results := by
  unfold copiedResults at h
  split at h <;> cases h
  rfl

theorem resultVersion_safe {result : OrderedDict String Document} {updatedAt : String} {version : ℤ} :
    resultVersion (Document.map (safeResult result updatedAt version).entries).stored = some version := by
  have hget : (Document.map (safeResult result updatedAt version).entries).get? "result_version" =
      some (.int version) := by
    change (safeResult result updatedAt version).entries.lookup "result_version" = _
    rw [OrderedDict.lookup_entries]
    exact (OrderedDict.get?_insert _ _ _ _).trans (if_pos rfl)
  unfold resultVersion
  rw [Document.get?_stored, hget]
  exact Document.storedInt_stored (.int version)

/-- A result. -/
theorem result_change {branchId now : String} {expected prior : ℤ} {row : CommandRow}
    {own : Option CommandRow} {result : OrderedDict String Document} {digest : String}
    (hg : DeletionSound lib inventory v g)
    (hx : Tenure.Sound lib inventory v i ⟨w.userId, w.commandId, own⟩ row)
    (hclaim : row.commandVersion = some claim.commandVersion)
    (hprior : resultVersion (priorResult (row.branchResults.getD .empty) branchId) = some prior)
    (hdigest : digest = branchResultsDigest lib ((row.branchResults.getD .empty).insert branchId
      (.map (safeResult result now (prior + 1)).entries)))
    (ha : v.table.Admits [.modify w.key
      (fun stored : CommandRow => stored.recorded branchId (.map (safeResult result now (prior + 1)).entries)
        digest now)
      fun stored : CommandRow => stored.claimedBy claim (w.turn branchId).persistEpoch &&
        stored.atResultVersion branchId expected]) :
    Latest lib inventory v.history i w.key ∧
      Change lib inventory (.result branchId) w v.table (v.table.apply [.modify w.key
        (fun stored : CommandRow => stored.recorded branchId
          (.map (safeResult result now (prior + 1)).entries) digest now)
        fun stored : CommandRow => stored.claimedBy claim (w.turn branchId).persistEpoch &&
          stored.atResultVersion branchId expected]) row
        (row.recorded branchId (.map (safeResult result now (prior + 1)).entries) digest now) := by
  obtain ⟨stored, hstored, hcondition, hafter, hothers⟩ := admits_modify ha
  obtain ⟨hclaimed, -⟩ := Bool.and_eq_true_iff.mp hcondition
  obtain ⟨hstatus, -, -, hversion, -, hlease⟩ := CommandRow.claimedBy_iff.mp hclaimed
  obtain ⟨rfl, hlatest⟩ := hx.current hstored hclaim hversion
  have hopen : stored.status ≠ .complete := by
    rw [hstatus]
    decide
  have horder := hg.inOrder _ _ stored hstored
  obtain ⟨huser, results, hresults, -⟩ := horder.unfinished hopen
  rw [hresults, Option.getD_some] at hprior hdigest
  have hresults' : (stored.recorded branchId (.map (safeResult result now (prior + 1)).entries) digest
      now).branchResults = some (results.insert branchId
        (Document.map (safeResult result now (prior + 1)).entries).stored) := by
    simp [CommandRow.recorded, hresults]
  refine ⟨hlatest, hstored, hafter, fun k hk _ => hothers k hk, ⟨_, hversion, ?_⟩, hopen, hstatus,
    ⟨horder.id, horder.trimmed, ?_, fun _ => ⟨huser, _, hresults', ?_⟩⟩,
    CommandRow.leasedAt_of_any hlease, ⟨?_, ?_⟩⟩
  · simp [CommandRow.recorded, hversion]
  · simp [CommandRow.recorded, hversion]
  · rw [branchResultsDigest_insert_stored, ← hdigest]
    rfl
  · intro before after hbefore hafter other hother
    cases hresults.symm.trans hbefore
    cases hresults'.symm.trans hafter
    exact (OrderedDict.get?_insert _ _ _ _).trans (if_neg hother)
  · intro before after hbefore hafter
    cases hresults.symm.trans hbefore
    cases hresults'.symm.trans hafter
    exact ⟨prior, _, hprior, (OrderedDict.get?_insert _ _ _ _).trans (if_pos rfl), resultVersion_safe⟩

/-- A seal that is valid for one copy of the fence is valid for every copy that is
still bound to the command. -/
theorem validateDeletionSeal_fence {row : CommandRow} {fence stored : FenceRow}
    (h : validateDeletionSeal row fence inventory = true) (hstatus : stored.status = .deletionPending)
    (hgeneration : stored.generation = row.generation) (hcommand : stored.commandId = some row.commandId) :
    validateDeletionSeal row stored inventory = true := by
  unfold validateDeletionSeal at h ⊢
  cases hresults : row.branchResults with
  | none =>
      rw [hresults] at h
      cases h
  | some results =>
      simp only [hresults, decide_eq_true_eq] at h ⊢
      obtain ⟨hpositive, hopen, hinventory, hids, hcontracts, -, -, -, hrest⟩ := h
      exact ⟨hpositive, hopen, hinventory, hids, hcontracts, hstatus, hgeneration, hcommand, hrest⟩

/-- The transaction that makes the command and the fence terminal. -/
abbrev finishes (w : Worker) (claim : DeletionCommandClaim) (terminal : CommandRow) (deleted : FenceRow)
    (inventory : Seal) (generation fenceVersion : ℤ) : List (Write Key Row) :=
  [.put w.key terminal fun stored => stored.any fun stored : CommandRow =>
      stored.claimedBy claim w.finalEpoch && stored.inventorySha256 = inventory.inventorySha256,
    .put (.fence w.userId) deleted fun stored => stored.any fun stored : FenceRow =>
      stored.status = .deletionPending ∧ stored.generation = generation ∧
        stored.version = fenceVersion ∧ stored.commandId = some w.commandId]

theorem final_change {row terminal : CommandRow} {own : Option CommandRow} {fence deleted : FenceRow}
    {fenceVersion : ℤ}
    (ha : v.table.Admits (finishes w claim terminal deleted inventory row.generation fenceVersion))
    (hg : DeletionSound lib inventory v g)
    (hx : Tenure.Sound lib inventory v i ⟨w.userId, w.commandId, own⟩ row)
    (hclaim : row.commandVersion = some claim.commandVersion)
    (hseal : validateDeletionSeal row fence inventory = true)
    (hcommand : terminal.commandId = w.commandId) (hstatus : terminal.status = .complete)
    (hversion : terminal.commandVersion = some (claim.commandVersion + 1))
    (hdigest : terminal.branchResultsDigest = row.branchResultsDigest)
    (hdeleted : deleted.status = .deleted) (hdeletedId : deleted.commandId = some w.commandId) :
    Latest lib inventory v.history i w.key ∧ Change lib inventory .final w v.table
      (v.table.apply (finishes w claim terminal deleted inventory row.generation fenceVersion)) row
      terminal := by
  obtain ⟨stored, hstored, hcondition⟩ := (Option.any_eq_true _ (v.table.row w.key)).mp
    (ha.2 _ (List.mem_cons_self ..))
  obtain ⟨storedFence, hfence, hawaits⟩ := (Option.any_eq_true _ (v.table.row (.fence w.userId))).mp
    (ha.2 _ (List.mem_cons_of_mem _ (List.mem_singleton_self _)))
  obtain ⟨hclaimed, -⟩ := Bool.and_eq_true_iff.mp hcondition
  obtain ⟨hrunning, -, -, hstoredVersion, -, hlease⟩ := CommandRow.claimedBy_iff.mp hclaimed
  obtain ⟨hpending, hgeneration, -, hfenceCommand⟩ := of_decide_eq_true hawaits
  obtain ⟨rfl, hlatest⟩ := hx.current hstored hclaim hstoredVersion
  have hopen : stored.status ≠ .complete := by
    rw [hrunning]
    decide
  have horder := hg.inOrder _ _ stored hstored
  have hafter := Table.row_apply_of_mem v.table ha.1 (List.mem_cons_self ..)
  have hafterFence := Table.row_apply_of_mem v.table ha.1
    (List.mem_cons_of_mem _ (List.mem_singleton_self _))
  refine ⟨hlatest, hstored, hafter, fun k hk hkf => ?_, ⟨_, hclaim, hversion⟩, hopen, hstatus,
    ⟨hcommand, horder.trimmed, by rw [hversion]; rfl, fun hne => absurd hstatus hne⟩,
    CommandRow.leasedAt_of_any hlease,
    ⟨storedFence, deleted, hfence, hafterFence, hpending, hfenceCommand, hdeleted, hdeletedId, ?_⟩, hdigest⟩
  · refine Table.row_apply_of_notMem v.table _ k fun write hwrite => ?_
    rcases List.mem_cons.mp hwrite with rfl | hwrite
    · exact hk
    · rw [List.mem_singleton.mp hwrite]
      exact hkf rfl
  · exact validateDeletionSeal_fence hseal hpending hgeneration (horder.id ▸ hfenceCommand)

end

/-! ## Reads -/

section

variable {F : Access Key Row} {α : Type} {w : Worker} {i : ℕ} {x : Tenure}

theorem commandOf_eq_some {commandId : String} {item : (k : Key) × Row k} {command : Command} :
    commandOf commandId item = some command ↔
      item = ⟨command.key, command.row⟩ ∧ command.row.commandId = commandId := by
  obtain ⟨k, row⟩ := item
  cases k with
  | fence userId => simp [commandOf]
  | command userId id =>
      obtain ⟨owner, id', row'⟩ := command
      by_cases hid : CommandRow.commandId row = commandId
      · simp only [commandOf, hid, if_true, Option.some.injEq, Command.mk.injEq, Sigma.mk.injEq,
          Key.command.injEq]
        constructor
        · rintro ⟨rfl, rfl, rfl⟩
          exact ⟨⟨⟨rfl, rfl⟩, HEq.rfl⟩, hid⟩
        · rintro ⟨⟨⟨rfl, rfl⟩, hrow⟩, -⟩
          exact ⟨rfl, rfl, eq_of_heq hrow⟩
      · simp only [commandOf, hid, if_false, reduceCtorEq, Sigma.mk.injEq, Key.command.injEq, false_iff]
        rintro ⟨⟨⟨rfl, rfl⟩, hrow⟩, hid'⟩
        exact hid (eq_of_heq hrow ▸ hid')

/-- A command that is found by its identity is the only one of that identity. -/
structure Found (commandId : String) (t : Table Key Row) (command : Command) : Prop where
  stored : t.row command.key = some command.row
  only : ∀ userId id (row : CommandRow), t.row (.command userId id) = some row →
    row.commandId = commandId → command = ⟨userId, id, row⟩

theorem keeps_getCommandById {Q : Except Raised (Option Command) → Tenure → Prop} {commandId : String}
    (h : ∀ v g command, DeletionSound lib inventory v g → g i = some x → Found commandId v.table command →
      Q (.ok (some command)) x)
    (hnone : Q (.ok none) x) (herror : ∀ e, Q (.error e) x) :
    (getCommandById commandId).run.Keeps F (DeletionSound lib inventory) (fun _ _ => True) i w Q x := by
  refine Handler.keeps_list_bind_learn (fun v g rows hg hi ha => .same hg hi ?_) (herror _)
  split
  · exact hnone
  · rename_i command hrows
    refine h v g command hg hi ⟨?_, fun userId id row hrow hid => ?_⟩
    · have hmem : command ∈ rows.filterMap (commandOf commandId) := hrows ▸ List.mem_singleton_self _
      obtain ⟨item, hitem, hcommand⟩ := List.mem_filterMap.mp hmem
      obtain ⟨rfl, -⟩ := commandOf_eq_some.mp hcommand
      exact (ha.mem_iff.mp hitem).2
    · have hmem : (⟨userId, id, row⟩ : Command) ∈ rows.filterMap (commandOf commandId) :=
        List.mem_filterMap.mpr ⟨⟨.command userId id, row⟩, ha.mem_iff.mpr ⟨rfl, hrow⟩,
          commandOf_eq_some.mpr ⟨rfl, hid⟩⟩
      rw [hrows] at hmem
      exact (List.mem_singleton.mp hmem).symm
  · exact herror _

/-- The worker wrote the row last, and its claim is of the number of that row. -/
structure Holds (w : Worker) (claim : DeletionCommandClaim) (row : CommandRow) (x : Tenure) : Prop where
  tenure : x = ⟨w.userId, w.commandId, some row⟩
  commandId : claim.commandId = w.commandId
  version : row.commandVersion = some claim.commandVersion

theorem requireCurrentClaim_eq_ok {row : CommandRow} {claim : DeletionCommandClaim} {u : Unit}
    (h : requireCurrentClaim lib row claim = .ok u) :
    row.status = .running ∧ row.commandVersion = some claim.commandVersion := by
  unfold requireCurrentClaim at h
  split at h
  · rename_i hcurrent
    exact ⟨hcurrent.1, hcurrent.2.2.2.2.2.1⟩
  · cases h

theorem Holds.eq_of_version {v : View Key Row Worker} {g : ℕ → Option Tenure}
    {claim : DeletionCommandClaim} {row now : CommandRow} (h : Holds w claim row x)
    (hg : DeletionSound lib inventory v g) (hi : g i = some x) (hnow : v.table.row w.key = some now)
    (hversion : now.commandVersion = some claim.commandVersion) : now = row := by
  obtain ⟨rfl, -, hrow⟩ := h
  exact ((hg.tenures i _ row hi rfl).current hnow hrow hversion).1

/-- What is read under a claim that is still good is what the worker wrote last. -/
theorem keeps_currentCommand_bind {Q : Except Raised α → Tenure → Prop} {f : Command → Action α} {claim : DeletionCommandClaim}
    {row : CommandRow} (hx : Holds w claim row x) (herror : ∀ e, Q (.error e) x)
    (h : row.status = .running → row.InOrder lib w.userId w.commandId →
      (f ⟨w.userId, w.commandId, row⟩).run.Keeps F (DeletionSound lib inventory) (fun _ _ => True) i w Q x) :
    (currentCommand lib claim >>= f).run.Keeps F (DeletionSound lib inventory) (fun _ _ => True) i w Q x := by
  refine Handler.keeps_bind (Handler.keeps_bind (keeps_getCommandById (fun v g command hg hi hfound => ?_)
    (herror _) herror))
  refine Handler.keeps_of_bind (fun _ hcurrent => ?_) (fun e _ => herror e)
  obtain ⟨hrunning, hversion⟩ := requireCurrentClaim_eq_ok hcurrent
  obtain ⟨now, hnow, -⟩ := (hg.tenures i x row hi (hx.tenure ▸ rfl)).stored
  have hkey : x.key = w.key := by rw [hx.tenure]
  have hstored : v.table.row w.key = some now := by
    obtain ⟨rfl, -, -⟩ := hx
    exact hnow
  have hid : now.commandId = claim.commandId := (hg.inOrder _ _ now hstored).id.trans hx.commandId.symm
  obtain rfl := hfound.only _ _ now hstored hid
  obtain rfl := hx.eq_of_version hg hi hstored hversion
  exact h hrunning (hg.inOrder _ _ now hstored)

/-! ## Writes under a claim -/

-- The checks of the arguments are not looked into from here on.
attribute [local irreducible] required

theorem keeps_claim_bind {Q : Except Raised α → Tenure → Prop} {f : Option DeletionCommandClaim → Action α}
    (herror : ∀ e y, Q (.error e) y)
    (hnone : ∀ y, (f none).run.Keeps F (DeletionSound lib inventory) (fun _ _ => True) i w Q y)
    (h : ∀ claim row y, Holds w claim row y →
      (f (some claim)).run.Keeps F (DeletionSound lib inventory) (fun _ _ => True) i w Q y) :
    (claimDeletionCommand lib w >>= f).run.Keeps F (DeletionSound lib inventory) (fun _ _ => True) i w Q x := by
  refine Handler.keeps_bind ?_
  refine Handler.keeps_of_bind (fun owner _ => ?_) (fun e _ => herror e _)
  refine Handler.keeps_of_bind (fun now hnow => ?_) (fun e _ => herror e _)
  refine Handler.keeps_of_bind (fun expiry hexpiry => ?_) (fun e _ => herror e _)
  refine Handler.keeps_of_bind (fun _ _ => ?_) (fun e _ => herror e _)
  refine Handler.keeps_of_bind (fun nowIso _ => ?_) (fun e _ => herror e _)
  refine Handler.keeps_of_bind (fun initial _ => ?_) (fun e _ => herror e _)
  obtain ⟨rfl, -⟩ := positiveInt_eq_ok.mp hnow
  obtain ⟨rfl, -⟩ := positiveInt_eq_ok.mp hexpiry
  refine Handler.keeps_get_bind_learn (fun v g hg hi => ?_) (herror _ _)
  cases hrow : v.table.row w.key with
  | none => exact .same hg hi (hnone x)
  | some read =>
      have horder := hg.inOrder _ _ read hrow
      refine .same hg hi ?_
      dsimp only
      split
      · refine Handler.keeps_submit_bind (herror _ _) fun v' g' hg' hi' ha _ => ?_
        obtain ⟨row, hstored, hnumber, hchange⟩ := claim_change hg' ha
        have hsound := hg'.commit (i := i) hchange fun hne => absurd rfl hne
        refine ⟨⟨_, hsound, ?_⟩, _, hsound, herror _ _⟩
        refine Handler.keeps_of_bind (fun claim hclaim => ?_) (fun e _ => herror e _)
        obtain ⟨hid, hversion⟩ := claimFromCommand_eq_ok hclaim (horder.id.symm ▸ horder.trimmed.2) rfl
        refine h claim _ _ ⟨rfl, hid.trans horder.id, ?_⟩
        rw [hversion, ← hnumber]
        rfl
      · exact hnone x

theorem keeps_renewal_bind {Q : Except Raised α → Tenure → Prop} {f : DeletionCommandClaim → Action α} {branchId now : String}
    {expiry : ℤ} {claim : DeletionCommandClaim} {row : CommandRow} (hx : Holds w claim row x)
    (herror : ∀ e y, Q (.error e) y)
    (h : ∀ claim row y, Holds w claim row y →
      (f claim).run.Keeps F (DeletionSound lib inventory) (fun _ _ => True) i w Q y) :
    (renewDeletionCommandClaim lib ⟨w.userId, w.commandId, row⟩ claim (w.turn branchId).renewalEpoch expiry
      now >>= f).run.Keeps F (DeletionSound lib inventory) (fun _ _ => True) i w Q x := by
  refine Handler.keeps_bind ?_
  refine Handler.keeps_of_bind (fun epoch hepoch => ?_) (fun e _ => herror e _)
  refine Handler.keeps_of_bind (fun expiry' _ => ?_) (fun e _ => herror e _)
  refine Handler.keeps_of_bind (fun _ _ => ?_) (fun e _ => herror e _)
  refine Handler.keeps_of_bind (fun now' _ => ?_) (fun e _ => herror e _)
  obtain ⟨rfl, -⟩ := positiveInt_eq_ok.mp hepoch
  refine Handler.keeps_submit_bind (herror _ _) fun v g hg hi ha _ => ?_
  obtain ⟨rfl, hid, hversion⟩ := hx
  obtain ⟨hlatest, hchange⟩ := renewal_change hg (hg.tenures i _ row hi rfl) hversion ha
  have hsound := hg.commit hchange fun _ => hlatest
  refine ⟨⟨_, hsound, h _ (row.renewed expiry' now') _ ⟨rfl, hid, ?_⟩⟩, _, hsound, herror _ _⟩
  simp [CommandRow.renewed, hversion]

theorem keeps_result_bind {Q : Except Raised α → Tenure → Prop} {f : DeletionCommandClaim → Action α} {branchId now digest : String}
    {expected : ℤ} {result : OrderedDict String Document} {claim : DeletionCommandClaim} {row : CommandRow}
    (hx : Holds w claim row x) (herror : ∀ e y, Q (.error e) y)
    (h : ∀ claim row y, Holds w claim row y →
      (f claim).run.Keeps F (DeletionSound lib inventory) (fun _ _ => True) i w Q y) :
    (persistBranchResult lib ⟨w.userId, w.commandId, row⟩ branchId result now claim digest
      (w.turn branchId).persistEpoch expected >>= f).run.Keeps F (DeletionSound lib inventory) (fun _ _ => True) i w Q
        x := by
  refine Handler.keeps_bind ?_
  refine Handler.keeps_of_bind (fun _ _ => ?_) (fun e _ => herror e _)
  refine Handler.keeps_of_bind (fun epoch hepoch => ?_) (fun e _ => herror e _)
  refine Handler.keeps_of_bind (fun now' hnow => ?_) (fun e _ => herror e _)
  refine Handler.keeps_of_bind (fun _ _ => ?_) (fun e _ => herror e _)
  refine Handler.keeps_of_bind (fun _ _ => ?_) (fun e _ => herror e _)
  refine Handler.keeps_of_bind (fun prior hprior => ?_) (fun e _ => herror e _)
  refine Handler.keeps_of_bind (fun _ _ => ?_) (fun e _ => herror e _)
  refine Handler.keeps_of_bind (fun copied hcopied => ?_) (fun e _ => herror e _)
  obtain ⟨rfl, -⟩ := positiveInt_eq_ok.mp hepoch
  obtain rfl := copiedResults_eq_ok hcopied
  refine Handler.keeps_submit_bind (herror _ _) fun v g hg hi ha _ => ?_
  obtain ⟨rfl, hid, hversion⟩ := hx
  have hguard : resultVersion (priorResult (row.branchResults.getD .empty) branchId) = some prior := by
    split at hprior
    · cases hprior
    · rename_i found hfound
      split at hprior <;> cases hprior
      exact hfound
  obtain ⟨hlatest, hchange⟩ := result_change hg (hg.tenures i _ row hi rfl) (by exact hversion) hguard rfl ha
  have hsound := hg.commit hchange fun _ => hlatest
  refine ⟨⟨_, hsound, h _ _ _ ⟨rfl, hid, ?_⟩⟩, _, hsound, herror _ _⟩
  simp [CommandRow.recorded, hversion]

/-! ## The end -/

theorem readOnly_getDeletionCommand {userId commandId : String} :
    (getDeletionCommand userId commandId).run.ReadOnly :=
  Handler.readOnly_bind trivial fun _ => Handler.readOnly_bind trivial fun _ =>
    Handler.readOnly_bind Handler.readOnly_get fun _ => trivial

theorem readOnly_getAccountFence {userId : String} : (getAccountFence userId).run.ReadOnly :=
  Handler.readOnly_bind trivial fun _ => Handler.readOnly_bind Handler.readOnly_get fun _ => trivial

theorem keeps_getAccountFence_bind {Q : Except Raised α → Tenure → Prop} {f : Option Fence → Action α}
    {userId : String} (hu : Trimmed userId)
    (hnone : (f none).run.Keeps F (DeletionSound lib inventory) (fun _ _ => True) i w Q x)
    (hsome : ∀ fence, (f (some ⟨userId, fence⟩)).run.Keeps F (DeletionSound lib inventory)
      (fun _ _ => True) i w Q x)
    (herror : ∀ e, Q (.error e) x) :
    (getAccountFence userId >>= f).run.Keeps F (DeletionSound lib inventory) (fun _ _ => True) i w Q x := by
  refine Handler.keeps_bind ?_
  unfold getAccountFence
  rw [required_trimmed hu]
  refine Handler.keeps_get_bind (fun fence => ?_) (herror _)
  cases fence with
  | none => exact hnone
  | some fence => exact hsome fence

theorem readOnly_replayTerminal {userId commandId : String} {digest : Option String} :
    (replayTerminal userId commandId inventory digest).run.ReadOnly := by
  refine Handler.readOnly_bind readOnly_getDeletionCommand fun command => ?_
  refine Handler.readOnly_bind readOnly_getAccountFence fun fence => ?_
  split
  · split <;> trivial
  · trivial

theorem holdsTerminal_version {row : CommandRow} {claim : DeletionCommandClaim} {now : ℤ}
    (h : holdsTerminal lib row claim now = true) : row.commandVersion = some claim.commandVersion := by
  simp only [holdsTerminal, decide_eq_true_eq] at h
  exact h.2.2.2.2.2.1

theorem keeps_finalize {claim : DeletionCommandClaim} {row : CommandRow} {fence : FenceRow} (hx : Holds w claim row x)
    (hrunning : row.status = .running) (horder : row.InOrder lib w.userId w.commandId) :
    (finalizeAccountDeletion lib ⟨w.userId, w.commandId, row⟩ ⟨w.userId, fence⟩ inventory claim w.finalEpoch
      w.completedAt).run.Keeps F (DeletionSound lib inventory) (fun _ _ => True) i w (fun _ _ => True) x := by
  obtain ⟨huser, -⟩ := horder.unfinished (by rw [hrunning]; decide)
  refine Handler.keeps_of_bind (fun now _ => ?_) (fun e _ => trivial)
  refine Handler.keeps_of_bind (fun epoch hepoch => ?_) (fun e _ => trivial)
  obtain ⟨rfl, -⟩ := positiveInt_eq_ok.mp hepoch
  split
  · trivial
  · refine Handler.keeps_bind ?_
    unfold getDeletionCommand
    rw [huser, horder.id, required_trimmed horder.trimmed.1, required_trimmed horder.trimmed.2]
    refine Handler.keeps_get_bind_learn (fun v g hg hi => .same hg hi ?_) trivial
    cases hstored : v.table.row w.key with
    | none => trivial
    | some now =>
        refine Handler.keeps_of_bind (fun _ hholds => ?_) (fun e _ => trivial)
        have hholds' : holdsTerminal lib now claim w.finalEpoch = true := by
          split at hholds
          · assumption
          · cases hholds
        obtain rfl := hx.eq_of_version hg hi hstored (holdsTerminal_version hholds')
        refine Handler.keeps_of_bind (fun _ hseal => ?_) (fun e _ => trivial)
        refine Handler.keeps_of_bind (fun userId huserId => ?_) (fun e _ => trivial)
        refine Handler.keeps_of_bind (fun commandId hcommandId => ?_) (fun e _ => trivial)
        refine Handler.keeps_of_bind (fun version hversion => ?_) (fun e _ => trivial)
        rw [huser, required_trimmed horder.trimmed.1] at huserId
        rw [horder.id, required_trimmed horder.trimmed.2] at hcommandId
        cases huserId
        cases hcommandId
        have hnumber : version = claim.commandVersion := by
          rw [hx.version] at hversion
          dsimp only at hversion
          split at hversion <;> cases hversion
          rfl
        refine Handler.keeps_submit_bind ?_ fun v' g' hg' hi' ha _ => ?_
        · exact readOnly_replayTerminal.keeps fun _ => trivial
        · have hseal' : validateDeletionSeal now fence inventory = true := by
            split at hseal
            · assumption
            · cases hseal
          obtain ⟨rfl, -, hversion⟩ := hx
          obtain ⟨hlatest, hchange⟩ := final_change ha hg' (hg'.tenures i _ now hi' rfl)
            (hversion.trans (congrArg some hnumber.symm)) hseal' rfl rfl rfl rfl rfl rfl
          have hsound := hg'.commit hchange fun _ => hlatest
          exact ⟨⟨_, hsound, trivial⟩, _, hsound, readOnly_replayTerminal.keeps fun _ => trivial⟩

/-! ## A whole worker -/

/-- A worker that goes on holds what it wrote last. -/
def GoesOn (w : Worker) : Except Raised DeletionCommandClaim → Tenure → Prop
  | .ok claim, y => ∃ row, Holds w claim row y
  | .error _, _ => True

theorem keeps_continueBranches (branchIds : List String) {claim : DeletionCommandClaim} {row : CommandRow}
    (hx : Holds w claim row x) :
    (continueBranches lib inventory w branchIds claim).run.Keeps F (DeletionSound lib inventory)
      (fun _ _ => True) i w (GoesOn w) x := by
  induction branchIds generalizing claim row x with
  | nil => exact ⟨row, hx⟩
  | cons branchId rest ih =>
      refine keeps_currentCommand_bind hx (fun _ => trivial) fun _ _ => ?_
      dsimp only
      by_cases hsettled : isSettled (priorResult (row.branchResults.getD .empty) branchId) = true
      · rw [if_pos hsettled]
        exact ih hx
      · rw [if_neg hsettled]
        refine keeps_renewal_bind hx (fun _ _ => trivial) fun claim row y hy => ?_
        refine keeps_currentCommand_bind hy (fun _ => trivial) fun _ _ => ?_
        refine Handler.keeps_of_bind (fun contract _ => ?_) (fun _ _ => trivial)
        exact keeps_result_bind hy (fun _ _ => trivial) fun claim row y hy => ih hy

theorem keeps_continueCommand {claim : DeletionCommandClaim} {row : CommandRow} (hx : Holds w claim row x) :
    (continueCommand lib inventory w claim).run.Keeps F (DeletionSound lib inventory) (fun _ _ => True) i w
      (fun _ _ => True) x := by
  refine Handler.keeps_bind (keeps_getCommandById (fun v g command hg hi hfound => ?_) trivial
    fun _ => trivial)
  dsimp only [ExceptT.bindCont]
  split
  · trivial
  · refine Handler.keeps_of_bind (fun _ _ => ?_) (fun _ _ => trivial)
    refine Handler.keeps_of_bind (fun _ _ => ?_) (fun _ _ => trivial)
    refine Handler.keeps_bind ((keeps_continueBranches _ hx).mono fun r y hr => ?_)
    cases r with
    | error e => trivial
    | ok claim =>
        obtain ⟨row, hy⟩ := hr
        refine keeps_currentCommand_bind hy (fun _ => trivial) fun hrunning horder => ?_
        obtain ⟨huser, -⟩ := horder.unfinished (by rw [hrunning]; decide)
        refine keeps_getAccountFence_bind (huser.symm ▸ horder.trimmed.1) trivial (fun fence => ?_)
          fun _ => trivial
        rw [huser]
        dsimp only
        split
        · refine Handler.keeps_bind ((keeps_finalize hy hrunning horder).mono fun r _ _ => ?_)
          cases r <;> trivial
        · trivial

theorem keeps_runWorker :
    (runWorker lib inventory w).run.Keeps F (DeletionSound lib inventory) (fun _ _ => True) i w
      (fun _ _ => True) x :=
  keeps_claim_bind (fun _ _ => trivial) (fun _ => trivial) fun _ _ _ hy => keeps_continueCommand hy

end

/-! ## Runs -/

section

variable {t : Table Key Row} {s : State Key Row Worker (Except Raised Unit)}

def Complete (t : Table Key Row) (userId commandId : String) : Prop :=
  ∃ row : CommandRow, t.row (.command userId commandId) = some row ∧ row.status = .complete

def Deleted (t : Table Key Row) (userId commandId : String) : Prop :=
  ∃ fence : FenceRow, t.row (.fence userId) = some fence ∧ fence.status = .deleted ∧
    fence.commandId = some commandId

theorem deletion_sound (ht : InOrder lib t) (h : Reachable (deletionService lib inventory) t s) :
    ∃ g, DeletionSound lib inventory s.view g := by
  have hinitial : DeletionSound lib inventory ⟨t, 0, []⟩ fun _ => none :=
    ⟨ht, fun _ _ hsuffix => absurd (List.suffix_nil.mp hsuffix) (List.cons_ne_nil _ _),
      fun _ he => absurd he List.not_mem_nil, .nil, fun _ _ _ hi => absurd hi (by simp)⟩
  obtain ⟨g, hg⟩ := (Steps.meeting h).kept (Φ := DeletionSound lib inventory) (Q := fun _ _ _ => True)
    hinitial (fun v g i hg => hg.forget i none fun x hx => absurd hx (by simp))
    (fun v g t' hg hdrift => hg.drift hdrift)
    (fun v g n hg _ => { hg with tenures := fun i x row hi hx => { hg.tenures i x row hi hx with } })
    fun w v g i hg _ _ _ => ⟨⟨w.userId, w.commandId, none⟩,
      hg.forget i _ (fun x hx => Option.some.inj hx ▸ rfl), keeps_runWorker⟩
  exact ⟨g, hg.holds⟩

/-- A stored result is kept, or replaced by its next version. -/
theorem Change.result_kept {kind : Kind} {w : Worker} {t t' : Table Key Row} {row row' : CommandRow}
    (h : Change lib inventory kind w t t' row row') {results : Results} {branchId : String}
    {value : Document} (hresults : row.branchResults = some results)
    (hvalue : results.get? branchId = some value) (hopen : row'.status ≠ .complete) :
    ∃ results' value', row'.branchResults = some results' ∧ results'.get? branchId = some value' ∧
      (value' = value ∨ ∃ version, resultVersion value = some version ∧
        resultVersion value' = some (version + 1)) := by
  have hstatus := h.status
  obtain ⟨-, results', hresults', -⟩ := h.inOrder.unfinished hopen
  cases kind with
  | final => exact absurd hstatus hopen
  | claim =>
      obtain ⟨-, hsame, -⟩ := h.writes
      exact ⟨results, value, hsame.trans hresults, hvalue, .inl rfl⟩
  | renewal other =>
      obtain ⟨-, hsame⟩ := h.writes
      exact ⟨results, value, hsame.trans hresults, hvalue, .inl rfl⟩
  | result other =>
      obtain ⟨-, hreplaces⟩ := h.writes
      by_cases hother : branchId = other
      · subst hother
        obtain ⟨version, value', hversion, hvalue', hnext⟩ := hreplaces.next _ _ hresults hresults'
        refine ⟨results', value', hresults', hvalue', .inr ⟨version, ?_, hnext⟩⟩
        unfold priorResult at hversion
        rw [hvalue] at hversion
        cases value <;> exact hversion
      · exact ⟨results', value, hresults',
          (hreplaces.others _ _ hresults hresults' branchId hother).trans hvalue, .inl rfl⟩

/-- The command and the fence become terminal in one commit. -/
theorem Change.terminal_together {kind : Kind} {w : Worker} {t t' : Table Key Row} {row row' : CommandRow}
    (h : Change lib inventory kind w t t' row row') (userId commandId : String) :
    (Complete t' userId commandId ∧ ¬ Complete t userId commandId) ↔
      (Deleted t' userId commandId ∧ ¬ Deleted t userId commandId) := by
  have hstatus := h.status
  constructor
  · rintro ⟨⟨stored, hstored, hcomplete⟩, hnot⟩
    by_cases hk : Key.command userId commandId = w.key
    · cases hk
      cases hstored.symm.trans h.after
      have hkind : kind = .final := by
        by_contra hkind
        rw [if_neg hkind, hcomplete] at hstatus
        cases hstatus
      subst hkind
      obtain ⟨-, ⟨fence, fence', hfence, hfence', hpending, -, hdeleted, hid, -⟩, -⟩ := h.writes
      refine ⟨⟨fence', hfence', hdeleted, hid⟩, ?_⟩
      rintro ⟨before, hbefore, hgone, -⟩
      cases hfence.symm.trans hbefore
      exact absurd (hpending.symm.trans hgone) (by decide)
    · exact absurd ⟨stored, (h.command_other hk).symm.trans hstored, hcomplete⟩ hnot
  · rintro ⟨⟨fence, hfence, hdeleted, hid⟩, hnot⟩
    by_cases hk : kind = .final ∧ Key.fence userId = .fence w.userId
    · obtain ⟨rfl, hk⟩ := hk
      cases hk
      obtain ⟨-, ⟨-, fence', -, hfence', -, -, -, hid', -⟩, -⟩ := h.writes
      cases hfence.symm.trans hfence'
      cases hid.symm.trans hid'
      refine ⟨⟨row', h.after, hstatus⟩, ?_⟩
      rintro ⟨before, hbefore, hcomplete⟩
      cases h.before.symm.trans hbefore
      exact h.unfinished hcomplete
    · have hsame := h.others (.fence userId) (by simp) fun hkind heq => hk ⟨hkind, heq⟩
      exact absurd ⟨fence, hsame.symm.trans hfence, hdeleted, hid⟩ hnot

/-- Every write of a run raises the number of its command by one; all but a claim
are made by the worker of the latest claim under an unexpired lease; the digest is
that of the results, also as they are read back, until the command is complete; a
result is only replaced by its next version; and the command becomes complete once,
together with its fence, by results that meet the seal. -/
theorem deletion_command_owned (ht : InOrder lib t)
    (h : Reachable (deletionService lib inventory) t s) :
    (∀ e older, e :: older <:+ s.history → Proper lib inventory e older) ∧
    (∀ userId commandId (row : CommandRow), s.table.row (.command userId commandId) = some row →
      row.status ≠ .complete → ∃ results, row.branchResults = some results ∧
        row.branchResultsDigest = some (branchResultsDigest lib results) ∧
        row.branchResultsDigest =
          some (branchResultsDigest lib (results.mapValues fun _ => Document.stored))) ∧
    (∀ e ∈ s.history, ∀ userId commandId (row row' : CommandRow) results branchId value,
      e.before.row (.command userId commandId) = some row →
      e.after.row (.command userId commandId) = some row' → row'.status ≠ .complete →
      row.branchResults = some results → results.get? branchId = some value →
        ∃ results' value', row'.branchResults = some results' ∧ results'.get? branchId = some value' ∧
          (value' = value ∨ ∃ version, resultVersion value = some version ∧
            resultVersion value' = some (version + 1))) ∧
    (∀ e ∈ s.history, ∀ userId commandId,
      (Complete e.after userId commandId ∧ ¬ Complete e.before userId commandId) ↔
        (Deleted e.after userId commandId ∧ ¬ Deleted e.before userId commandId)) ∧
    (s.history.Pairwise fun later earlier =>
      later.call.key = earlier.call.key → ¬ Made lib inventory .final earlier) ∧
    ∀ e ∈ s.history, Made lib inventory .final e → Stays e s.table := by
  obtain ⟨g, hg⟩ := deletion_sound ht h
  have hmade : ∀ e ∈ s.history, ∃ kind, Made lib inventory kind e := fun e he => by
    obtain ⟨newer, older, heq⟩ := List.append_of_mem he
    obtain ⟨kind, hkind, -⟩ := hg.proper e older ⟨newer, heq.symm⟩
    exact ⟨kind, hkind⟩
  refine ⟨hg.proper, fun userId commandId row hrow hopen => ?_, ?_, fun e he userId commandId => ?_, hg.last,
    hg.stays⟩
  · obtain ⟨-, results, hresults, hdigest⟩ := (hg.inOrder userId commandId row hrow).unfinished hopen
    exact ⟨results, hresults, hdigest, by rw [branchResultsDigest_stored, hdigest]⟩
  · intro e he userId commandId row row' results branchId value hrow hrow' hopen hresults hvalue
    obtain ⟨kind, own, own', hchange⟩ := hmade e he
    by_cases hk : Key.command userId commandId = e.call.key
    · cases hk
      cases hrow.symm.trans hchange.before
      cases hrow'.symm.trans hchange.after
      exact hchange.result_kept hresults hvalue hopen
    · cases hrow'.symm.trans ((hchange.command_other hk).trans hrow)
      exact ⟨results, value, hresults, hvalue, .inl rfl⟩
  · obtain ⟨kind, row, row', hchange⟩ := hmade e he
    exact hchange.terminal_together userId commandId

end

/-! ## A worker that finishes -/

namespace CommandSample

/-- A digest that tells no results from some. -/
def library : Library where
  sha256
    | .object [] => "0000000000000000000000000000000000000000000000000000000000000000"
    | _ => "1111111111111111111111111111111111111111111111111111111111111111"
  isTimestamp := fun _ => true

def contract : BranchContract := ⟨"v1", ["root"], ["all"]⟩

def privateStores : Seal where
  inventorySha256 := "inventory"
  branches := ACCOUNT_DELETION_BRANCH_IDS
  branchContracts := ACCOUNT_DELETION_BRANCH_IDS.map fun branchId => (branchId, contract)

/-- The end of a branch after two clean passes. -/
def clean : HandlerResult := { status := .complete, quiescent := true, epoch := 2 }

def results : Results :=
  .ofPairs (ACCOUNT_DELETION_BRANCH_IDS.map fun branchId =>
    (branchId, (Document.map (safeResult (clean.persisted "now" 1 contract) "now" 2).entries).stored))

/-- The command of a worker that stored the last result, and no more. -/
def command : CommandRow where
  commandId := "command"
  userId := "user"
  generation := 1
  status := .running
  acceptedAt := "then"
  updatedAt := some "now"
  inventorySha256 := "inventory"
  branchIds := some ACCOUNT_DELETION_BRANCH_IDS
  branchContracts := some privateStores.branchContracts
  version := 80
  commandVersion := some 80
  leaseOwner := some "first"
  leaseExpiresAt := some 200
  branchResults := some results
  branchResultsDigest := some (branchResultsDigest library results)

def fence : FenceRow := ⟨"user", .deletionPending, 1, some "command", none, some "then", none, some "then", 2⟩

def start : Table Key Row :=
  (Table.empty.set (.command "user" "command") (some command)).set (.fence "user") (some fence)

def worker : Worker where
  userId := "user"
  commandId := "command"
  generation := 1
  version := 80
  leaseOwner := "second"
  nowEpoch := 300
  leaseExpiresAt := 420
  now := "later"
  leaseSeconds := 120
  turn := fun _ => ⟨300, "later", none, "later", 300⟩
  finalEpoch := 310
  completedAt := "later"

abbrev Run := State Key Row Worker (Except Raised Unit)

def finished : Run :=
  (State.initial start).solo (deletionService library privateStores) worker []

theorem finished_reachable : Reachable (deletionService library privateStores) start finished :=
  State.solo_steps (S := deletionService library privateStores) trivial trivial trivial []

theorem start_inOrder : InOrder library start := by
  intro userId commandId row hrow
  have hkey : Key.command userId commandId = .command "user" "command" := by
    by_contra hne
    have hnone : start.row (.command userId commandId) = none :=
      (Table.row_set_of_ne (V := Row) _ _ (by simp)).trans (Table.row_set_of_ne (V := Row) _ _ hne)
    cases hrow.symm.trans hnone
  cases hkey
  cases hrow
  exact ⟨rfl, ⟨⟨by decide, by decide +kernel⟩, by decide, by decide +kernel⟩, rfl,
    fun _ => ⟨rfl, results, rfl, rfl⟩⟩

end CommandSample

theorem deletion_command_owned_sample :
    CommandSample.finished.history.Pairwise fun later earlier => later.call.key = earlier.call.key →
      ¬ Made CommandSample.library CommandSample.privateStores .final earlier :=
  (deletion_command_owned CommandSample.start_inOrder CommandSample.finished_reachable).2.2.2.2.1

/-- A command that is complete keeps the digest of its results, and not the results. -/
theorem complete_command_drops_results : ∃ row : CommandRow,
    CommandSample.finished.table.row (.command "user" "command") = some row ∧ row.status = .complete ∧
      row.branchResultsDigest ≠
        some (branchResultsDigest CommandSample.library (row.branchResults.getD .empty)) := by
  have hfinished : (CommandSample.finished.table.row (.command "user" "command")).any
      (fun row : CommandRow => row.status = .complete ∧ row.branchResultsDigest ≠
        some (branchResultsDigest CommandSample.library (row.branchResults.getD .empty))) = true := by
    decide +kernel
  obtain ⟨row, hrow, hdrops⟩ := (Option.any_eq_true _ (CommandSample.finished.table.row
    (.command "user" "command"))).mp hfinished
  exact ⟨row, hrow, of_decide_eq_true hdrops⟩

end Stoa.AccountDeletion
