import Stoa.Verification.AccountDeletion.Debts

/-! # What the receipt of a deletion counts

The last branch adds up what the notification branch has counted on the one page of
the pass in which nothing is owed for the first time. What was scrubbed in any other
pass is not in its receipts. -/

namespace Stoa.AccountDeletion

/-! ## Turns -/

section

variable {userId : String} {pass : Pass} {stored : StoredResults} {branches : List Branch} {branch : Branch}

def StoredResults.isDone (stored : StoredResults) (branch : Branch) : Bool :=
  (stored.primary branch).any BranchResult.done

/-- The pass goes on after the branch. -/
def Pass.goesOn (pass : Pass) (stored : StoredResults) (branch : Branch) : Bool :=
  stored.isDone branch ||
    match pass.turn branch with
    | .recorded _ => true
    | _ => false

theorem store_primary (result : BranchResult) (b : Branch) :
    (stored.store branch result).primary b = if b = branch then some result else stored.primary b := by
  exact Function.update_apply stored.primary branch (some result) b

theorem goesOn_store {result : BranchResult} {b : Branch} (h : b ≠ branch) :
    pass.goesOn (stored.store branch result) b = pass.goesOn stored b := by
  unfold Pass.goesOn StoredResults.isDone
  rw [store_primary, if_neg h]

theorem isDone_store {result : BranchResult} {b : Branch} (h : b ≠ branch) :
    (stored.store branch result).isDone b = stored.isDone b := by
  unfold StoredResults.isDone
  rw [store_primary, if_neg h]

theorem runBranches_done {rest : List Branch} (h : stored.isDone branch = true) :
    runBranches userId pass (branch :: rest) stored = runBranches userId pass rest stored :=
  if_pos h

theorem runBranches_open {rest : List Branch} (h : stored.isDone branch = false) :
    runBranches userId pass (branch :: rest) stored =
      match pass.turn branch with
      | .recorded env => runBranches userId pass rest
          (stored.store branch (branch.continue_ userId (stored.primary branch) env))
      | .lost _ => (stored, false)
      | .ended => (stored, false) :=
  if_neg (Bool.eq_false_iff.mp h)

theorem runBranches_external : (runBranches userId pass branches stored).1.external = stored.external := by
  induction branches generalizing stored with
  | nil => rfl
  | cons branch rest ih =>
      cases hdone : stored.isDone branch with
      | true => rw [runBranches_done hdone, ih]
      | false =>
          rw [runBranches_open hdone]
          cases pass.turn branch with
          | recorded env => exact ih
          | lost env => rfl
          | ended => rfl

theorem goesOn_of_done (h : stored.isDone branch = true) : pass.goesOn stored branch = true := by
  rw [Pass.goesOn, h, Bool.true_or]

theorem goesOn_of_open (h : stored.isDone branch = false) :
    pass.goesOn stored branch = true ↔ ∃ env, pass.turn branch = .recorded env := by
  unfold Pass.goesOn
  rw [h, Bool.false_or]
  cases pass.turn branch <;> simp

theorem runBranches_reached (hnodup : branches.Nodup) :
    (runBranches userId pass branches stored).2 = true ↔ ∀ b ∈ branches, pass.goesOn stored b = true := by
  induction branches generalizing stored with
  | nil => simp [runBranches]
  | cons branch rest ih =>
      obtain ⟨hnot, hrest⟩ := List.nodup_cons.mp hnodup
      rw [List.forall_mem_cons]
      cases hdone : stored.isDone branch with
      | true => rw [runBranches_done hdone, ih hrest, and_iff_right (goesOn_of_done hdone)]
      | false =>
          rw [runBranches_open hdone, goesOn_of_open hdone]
          cases pass.turn branch with
          | recorded env =>
              rw [ih hrest, and_iff_right ⟨env, rfl⟩]
              refine forall₂_congr fun b hb => ?_
              have hne : b ≠ branch := by
                rintro rfl
                exact hnot hb
              rw [goesOn_store hne]
          | lost env => simp
          | ended => simp

theorem runBranches_other {b : Branch} (h : b ∉ branches) :
    (runBranches userId pass branches stored).1.primary b = stored.primary b := by
  induction branches generalizing stored with
  | nil => rfl
  | cons branch rest ih =>
      have hne := List.ne_of_not_mem_cons h
      have hrest := List.not_mem_of_not_mem_cons h
      cases hdone : stored.isDone branch with
      | true => rw [runBranches_done hdone, ih hrest]
      | false =>
          rw [runBranches_open hdone]
          cases pass.turn branch with
          | recorded env =>
              dsimp only
              rw [ih hrest, store_primary, if_neg hne]
          | lost env => rfl
          | ended => rfl

/-- A branch keeps its result, or is run with the result that was stored. -/
theorem runBranches_primary (hnodup : branches.Nodup) (b : Branch) :
    (runBranches userId pass branches stored).1.primary b = stored.primary b ∨
      stored.isDone b = false ∧ ∃ env, pass.turn b = .recorded env ∧
        (runBranches userId pass branches stored).1.primary b =
          some (b.continue_ userId (stored.primary b) env) := by
  induction branches generalizing stored with
  | nil => exact .inl rfl
  | cons branch rest ih =>
      obtain ⟨hnot, hrest⟩ := List.nodup_cons.mp hnodup
      cases hdone : stored.isDone branch with
      | true =>
          rw [runBranches_done hdone]
          exact ih hrest
      | false =>
          rw [runBranches_open hdone]
          cases hturn : pass.turn branch with
          | recorded env =>
              dsimp only
              by_cases hb : b = branch
              · subst hb
                refine .inr ⟨hdone, env, hturn, ?_⟩
                rw [runBranches_other hnot, store_primary, if_pos rfl]
              · have hstep := @ih (stored.store branch (branch.continue_ userId (stored.primary branch) env)) hrest
                rw [store_primary, if_neg hb, isDone_store hb] at hstep
                exact hstep
          | lost env => exact .inl rfl
          | ended => exact .inl rfl

/-- In a pass that goes through, every branch that is open is run. -/
theorem runBranches_recorded (hnodup : branches.Nodup) {b : Branch} {env : Environment} (hb : b ∈ branches)
    (hreached : (runBranches userId pass branches stored).2 = true) (hopen : stored.isDone b = false)
    (hturn : pass.turn b = .recorded env) :
    (runBranches userId pass branches stored).1.primary b = some (b.continue_ userId (stored.primary b) env) := by
  induction branches generalizing stored with
  | nil => cases hb
  | cons branch rest ih =>
      obtain ⟨hnot, hrest⟩ := List.nodup_cons.mp hnodup
      cases hdone : stored.isDone branch with
      | true =>
          rw [runBranches_done hdone] at hreached ⊢
          rcases List.mem_cons.mp hb with rfl | hmem
          · rw [hopen] at hdone
            cases hdone
          · exact ih hrest hmem hreached hopen
      | false =>
          rw [runBranches_open hdone] at hreached ⊢
          rcases List.mem_cons.mp hb with rfl | hmem
          · rw [hturn] at hreached ⊢
            dsimp only
            rw [runBranches_other hnot, store_primary, if_pos rfl]
          · have hne : b ≠ branch := by
              rintro rfl
              exact hnot hmem
            cases hbranch : pass.turn branch with
            | recorded env' =>
                rw [hbranch] at hreached
                dsimp only at hreached ⊢
                rw [ih hrest hmem hreached ((isDone_store hne).trans hopen), store_primary, if_neg hne]
            | lost env' =>
                rw [hbranch] at hreached
                cases hreached
            | ended =>
                rw [hbranch] at hreached
                cases hreached

/-! ## What is stored -/

def noneCounted (result : BranchResult) : Prop := ∀ name ∈ EXTERNAL_COUNTS, result.count name = 0

/-- Only the notification branch counts deliveries, and no more when it is complete. -/
structure StoredResults.Counts (stored : StoredResults) : Prop where
  others : ∀ branch ≠ Branch.notificationDeviceRealtime, ∀ result ∈ stored.primary branch, noneCounted result
  done : ∀ result ∈ stored.primary .notificationDeviceRealtime, result.done = true → noneCounted result
  delivered : ∀ result ∈ stored.primary .notificationDeviceRealtime, result.count "external_delivered" = 0

/-- What the purge of report objects answers, in the run of a pass. -/
def Pass.purgeStatuses (pass : Pass) : Prop :=
  ∀ env, pass.turn .reportArtifacts = .recorded env → env.purgeStatuses

theorem continue_open {env : Environment} (h : stored.isDone branch = false) :
    branch.continue_ userId (stored.primary branch) env =
      (branch.handler userId (stored.primary branch) env).getD raisedDebt :=
  continue_of_open h

theorem counts_notification (previous : Option BranchResult) (env : Environment)
    (h : intentsOf previous env = []) :
    noneCounted ((notificationDeviceRealtimeBranch previous env).getD raisedDebt) := by
  intro name hname
  have hcount : ∀ status ∈ COUNTED_STATUSES,
      ((notificationDeviceRealtimeBranch previous env).getD raisedDebt).count (countName status) = 0 := by
    intro status hstatus
    rw [count_notification hstatus, h]
    rfl
  unfold EXTERNAL_COUNTS at hname
  rcases List.mem_cons.mp hname with rfl | hname
  · exact hcount "accepted" (by decide)
  · rcases List.mem_pair.mp hname with rfl | rfl
    · exact delivered_notification
    · exact hcount "provider_acceptance_unknown" (by decide)

theorem counts_runBranches (hcounts : stored.Counts) (hnodup : branches.Nodup) (hstatuses : pass.purgeStatuses) :
    (runBranches userId pass branches stored).1.Counts := by
  refine ⟨?_, ?_, ?_⟩
  · intro b hb result hresult
    rcases runBranches_primary hnodup b with hsame | ⟨hopen, env, hturn, hrun⟩
    · rw [hsame] at hresult
      exact hcounts.others b hb result hresult
    · rw [hrun, continue_open hopen] at hresult
      cases hresult
      refine (owes_handler hb ?_).external
      rintro rfl
      exact hstatuses env hturn
  · intro result hresult hdone
    rcases runBranches_primary hnodup .notificationDeviceRealtime with hsame | ⟨hopen, env, hturn, hrun⟩
    · rw [hsame] at hresult
      exact hcounts.done result hresult hdone
    · rw [hrun, continue_open hopen] at hresult
      cases hresult
      exact counts_notification _ env (intents_of_done hdone)
  · intro result hresult
    rcases runBranches_primary hnodup .notificationDeviceRealtime with hsame | ⟨hopen, env, hturn, hrun⟩
    · rw [hsame] at hresult
      exact hcounts.delivered result hresult
    · rw [hrun, continue_open hopen] at hresult
      cases hresult
      exact delivered_notification

theorem primary_nodup : PRIMARY_BRANCHES.Nodup := by decide

theorem run_primary : (pass.run userId stored).primary = (runBranches userId pass PRIMARY_BRANCHES stored).1.primary := by
  unfold Pass.run
  split
  rename_i after reached hrun
  split <;> rw [hrun]

theorem counts_run (hcounts : stored.Counts) (hstatuses : pass.purgeStatuses) : (pass.run userId stored).Counts := by
  have h : (runBranches userId pass PRIMARY_BRANCHES stored).1.Counts :=
    counts_runBranches hcounts primary_nodup hstatuses
  exact ⟨by rw [run_primary]; exact h.others, by rw [run_primary]; exact h.done, by rw [run_primary]; exact h.delivered⟩

/-! ## The pass that settles -/

/-- Once the pass has had its turn with the branch, nothing is owed there. -/
def Pass.clears (userId : String) (pass : Pass) (stored : StoredResults) (branch : Branch) : Bool :=
  if stored.isDone branch then (stored.primary branch).all fun result => result.owed = 0
  else
    match pass.turn branch with
    | .recorded env => branch.clears userId (stored.primary branch) env
    | _ => false

/-- The pass comes to the last branch, and there is nothing owed. -/
def Pass.settles (userId : String) (pass : Pass) (stored : StoredResults) : Bool :=
  !stored.settled && pass.externalRecorded && PRIMARY_BRANCHES.all (pass.clears userId stored)

/-- The intents that are scrubbed in a pass. -/
def Pass.scrubbed (userId : String) (pass : Pass) (stored : StoredResults) : List PrivateRow :=
  let (before, reached) := runBranches userId pass PRIMARY_BRANCHES.dropLast stored
  if reached = true ∧ before.isDone .notificationDeviceRealtime = false then
    match pass.turn .notificationDeviceRealtime with
    | .recorded env => scrubbedIntents (before.primary .notificationDeviceRealtime) env
    | .lost env => scrubbedIntents (before.primary .notificationDeviceRealtime) env
    | .ended => []
  else []

theorem goesOn_of_clears (h : pass.clears userId stored branch = true) : pass.goesOn stored branch = true := by
  unfold Pass.clears at h
  cases hdone : stored.isDone branch with
  | true => exact goesOn_of_done hdone
  | false =>
      rw [hdone] at h
      unfold Pass.goesOn
      cases hturn : pass.turn branch with
      | recorded env => exact Bool.or_true _
      | lost env =>
          rw [hturn] at h
          cases h
      | ended =>
          rw [hturn] at h
          cases h

theorem mem_primary (branch : Branch) : branch ∈ PRIMARY_BRANCHES := by
  cases branch <;> decide

/-- In a pass that goes through, a branch owes nothing exactly if the pass clears it. -/
theorem owed_after (hstatuses : pass.purgeStatuses)
    (hreached : (runBranches userId pass PRIMARY_BRANCHES stored).2 = true) (branch : Branch) :
    (∃ result, (runBranches userId pass PRIMARY_BRANCHES stored).1.primary branch = some result ∧
      (result.owed = 0 ↔ pass.clears userId stored branch = true)) := by
  have hgoes := (runBranches_reached primary_nodup).mp hreached branch (mem_primary branch)
  cases hdone : stored.isDone branch with
  | true =>
      have hsame : (runBranches userId pass PRIMARY_BRANCHES stored).1.primary branch = stored.primary branch := by
        rcases runBranches_primary primary_nodup branch with hsame | ⟨hopen, -⟩
        · exact hsame
        · rw [hdone] at hopen
          cases hopen
      rw [hsame]
      unfold Pass.clears
      rw [hdone]
      unfold StoredResults.isDone at hdone
      cases hresult : stored.primary branch with
      | none =>
          rw [hresult] at hdone
          cases hdone
      | some result => exact ⟨result, rfl, by simp⟩
  | false =>
      obtain ⟨env, hturn⟩ := (goesOn_of_open hdone).mp hgoes
      refine ⟨_, runBranches_recorded primary_nodup (mem_primary branch) hreached hdone hturn, ?_⟩
      rw [continue_open hdone]
      unfold Pass.clears
      rw [hdone, hturn]
      simp only [Bool.false_eq_true, if_false]
      by_cases hbranch : branch = .notificationDeviceRealtime
      · subst hbranch
        exact owed_notification
      · refine (owes_handler hbranch ?_).owed
        rintro rfl
        exact hstatuses env hturn

/-! ## The end of a pass -/

theorem results_owed (hstatuses : pass.purgeStatuses)
    (hreached : (runBranches userId pass PRIMARY_BRANCHES stored).2 = true) :
    ((runBranches userId pass PRIMARY_BRANCHES stored).1.results.map BranchResult.owed).sum = 0 ↔
      PRIMARY_BRANCHES.all (pass.clears userId stored) = true := by
  rw [List.sum_eq_zero_iff_forall_eq_nat, List.all_eq_true]
  constructor
  · intro h branch hbranch
    obtain ⟨result, hresult, howed⟩ := owed_after hstatuses hreached branch
    exact howed.mp (h _ (List.mem_map_of_mem (List.mem_filterMap.mpr ⟨branch, hbranch, hresult⟩)))
  · intro h n hn
    obtain ⟨result, hmem, rfl⟩ := List.mem_map.mp hn
    obtain ⟨branch, hbranch, hresult⟩ := List.mem_filterMap.mp hmem
    obtain ⟨result', hresult', howed⟩ := owed_after hstatuses hreached branch
    have hsame : result' = result := Option.some_inj.mp (hresult'.symm.trans hresult)
    rw [← hsame]
    exact howed.mpr (h branch hbranch)

theorem external_done {results : List BranchResult} :
    (externalDeliveryDebtBranch results).result.done = true ↔ (results.map BranchResult.owed).sum = 0 := by
  unfold externalDeliveryDebtBranch
  by_cases h : (results.map BranchResult.owed).sum = 0
  · simp [h, BranchResult.done]
  · simp [h, BranchResult.done]

theorem external_receipts {results : List BranchResult} (h : (results.map BranchResult.owed).sum = 0) :
    (externalDeliveryDebtBranch results).receipts = receiptsOf (countOf "external_accepted" results)
      (countOf "external_delivered" results) (countOf "external_unknown" results) := by
  unfold externalDeliveryDebtBranch
  simp [h]

theorem reached_of_clears (h : PRIMARY_BRANCHES.all (pass.clears userId stored) = true) :
    (runBranches userId pass PRIMARY_BRANCHES stored).2 = true :=
  (runBranches_reached primary_nodup).mpr fun branch hbranch =>
    goesOn_of_clears (List.all_eq_true.mp h branch hbranch)

theorem run_external : (pass.run userId stored).external =
    if (runBranches userId pass PRIMARY_BRANCHES stored).2 = true ∧ stored.settled = false ∧
        pass.externalRecorded = true then
      some (externalDeliveryDebtBranch (runBranches userId pass PRIMARY_BRANCHES stored).1.results)
    else stored.external := by
  have hexternal : (runBranches userId pass PRIMARY_BRANCHES stored).1.external = stored.external :=
    runBranches_external
  unfold Pass.run StoredResults.settled
  split
  rename_i after reached hrun
  rw [hrun] at hexternal
  rw [hrun, hexternal]
  split
  · rfl
  · exact hexternal

theorem external_of_settled (h : stored.settled = true) : (pass.run userId stored).external = stored.external := by
  rw [run_external, h]
  simp

/-- The last branch is complete after the pass that settles. -/
theorem settled_run (hstatuses : pass.purgeStatuses) (hopen : stored.settled = false) :
    (pass.run userId stored).settled = pass.settles userId stored := by
  unfold StoredResults.settled Pass.settles
  rw [run_external, hopen]
  cases hclears : PRIMARY_BRANCHES.all (pass.clears userId stored) with
  | true =>
      have hreached := reached_of_clears hclears
      cases pass.externalRecorded with
      | true =>
          rw [if_pos ⟨hreached, rfl, rfl⟩, Option.any_some]
          exact external_done.mpr ((results_owed hstatuses hreached).mpr hclears)
      | false =>
          rw [if_neg (by simp)]
          exact hopen
  | false =>
      rw [Bool.and_false]
      split
      · rename_i h
        rw [Option.any_some, ← Bool.not_eq_true, external_done, results_owed hstatuses h.1, hclears]
        exact Bool.false_ne_true
      · exact hopen

/-! ### What it reports -/

theorem sum_primary (f : Branch → ℕ) (h : ∀ branch ≠ Branch.notificationDeviceRealtime, f branch = 0) :
    (PRIMARY_BRANCHES.map f).sum = f .notificationDeviceRealtime := by
  unfold PRIMARY_BRANCHES
  simp [h]

theorem countOf_eq (stored : StoredResults) (name : String) :
    countOf name stored.results =
      (PRIMARY_BRANCHES.map fun branch => ((stored.primary branch).map fun result => result.count name).getD 0).sum := by
  unfold countOf StoredResults.results
  induction PRIMARY_BRANCHES with
  | nil => rfl
  | cons branch branches ih =>
      rw [List.filterMap_cons, List.map_cons, List.sum_cons, ← ih]
      cases stored.primary branch with
      | none => simp
      | some result => rfl

/-- Only the notification branch has a part in the sums. -/
theorem countOf_notification (hcounts : stored.Counts) {name : String} (hname : name ∈ EXTERNAL_COUNTS) :
    countOf name stored.results =
      ((stored.primary .notificationDeviceRealtime).map fun result => result.count name).getD 0 := by
  rw [countOf_eq, sum_primary]
  intro branch hbranch
  cases hresult : stored.primary branch with
  | none => rfl
  | some result => exact hcounts.others branch hbranch result hresult name hname

theorem before_notification (h : PRIMARY_BRANCHES.all (pass.clears userId stored) = true) :
    (runBranches userId pass PRIMARY_BRANCHES.dropLast stored).2 = true := by
  refine (runBranches_reached (by decide)).mpr fun branch hbranch => ?_
  exact goesOn_of_clears (List.all_eq_true.mp h branch (mem_primary branch))

theorem before_primary :
    (runBranches userId pass PRIMARY_BRANCHES.dropLast stored).1.primary .notificationDeviceRealtime =
      stored.primary .notificationDeviceRealtime :=
  runBranches_other (by decide)

theorem before_isDone :
    (runBranches userId pass PRIMARY_BRANCHES.dropLast stored).1.isDone .notificationDeviceRealtime =
      stored.isDone .notificationDeviceRealtime := by
  unfold StoredResults.isDone
  rw [before_primary]

theorem scrubbed_eq : pass.scrubbed userId stored =
    if (runBranches userId pass PRIMARY_BRANCHES.dropLast stored).2 = true ∧
        stored.isDone .notificationDeviceRealtime = false then
      match pass.turn .notificationDeviceRealtime with
      | .recorded env => scrubbedIntents (stored.primary .notificationDeviceRealtime) env
      | .lost env => scrubbedIntents (stored.primary .notificationDeviceRealtime) env
      | .ended => []
    else [] := by
  have hprimary : (runBranches userId pass PRIMARY_BRANCHES.dropLast stored).1.primary
      .notificationDeviceRealtime = stored.primary .notificationDeviceRealtime := before_primary
  have hdone : (runBranches userId pass PRIMARY_BRANCHES.dropLast stored).1.isDone
      .notificationDeviceRealtime = stored.isDone .notificationDeviceRealtime := before_isDone
  unfold Pass.scrubbed
  split
  rename_i before reached hrun
  rw [hrun] at hprimary hdone ⊢
  rw [hdone, hprimary]

/-- The pass that settles counts what it scrubs. -/
theorem count_settles (hcounts : stored.Counts) (hstatuses : pass.purgeStatuses)
    (hclears : PRIMARY_BRANCHES.all (pass.clears userId stored) = true) {status : String}
    (hstatus : status ∈ COUNTED_STATUSES) :
    countOf (countName status) (runBranches userId pass PRIMARY_BRANCHES stored).1.results =
      (pass.scrubbed userId stored).countP fun item => item.status = status := by
  have hname : countName status ∈ EXTERNAL_COUNTS := by
    rcases List.mem_pair.mp hstatus with rfl | rfl <;> decide
  have hnotification := List.all_eq_true.mp hclears _ (mem_primary .notificationDeviceRealtime)
  rw [countOf_notification (counts_runBranches hcounts primary_nodup hstatuses) hname, scrubbed_eq]
  cases hdone : stored.isDone .notificationDeviceRealtime with
  | true =>
      -- It was complete before the pass, and counted nothing.
      have hsame : (runBranches userId pass PRIMARY_BRANCHES stored).1.primary .notificationDeviceRealtime =
          stored.primary .notificationDeviceRealtime := by
        rcases runBranches_primary primary_nodup .notificationDeviceRealtime with hsame | ⟨hopen, -⟩
        · exact hsame
        · rw [hdone] at hopen
          cases hopen
      rw [hsame, if_neg (by simp), List.countP_nil]
      unfold StoredResults.isDone at hdone
      cases hresult : stored.primary .notificationDeviceRealtime with
      | none => rfl
      | some result =>
          rw [hresult] at hdone
          exact hcounts.done result hresult hdone _ hname
  | false =>
      obtain ⟨env, hturn⟩ := (goesOn_of_open hdone).mp (goesOn_of_clears hnotification)
      rw [runBranches_recorded primary_nodup (mem_primary _) (reached_of_clears hclears) hdone hturn,
        continue_open hdone, if_pos ⟨before_notification hclears, rfl⟩, hturn]
      unfold Pass.clears at hnotification
      rw [hdone, hturn] at hnotification
      have hbranch : Branch.notificationDeviceRealtime.clears userId
        (stored.primary .notificationDeviceRealtime) env = true := hnotification
      dsimp only
      rw [scrubbed_of_clears hbranch]
      exact count_notification hstatus

/-- How many deliveries of a status the receipts report. -/
def reported (receipts : List DeliveryReceipt) (status : String) : ℕ :=
  ((receipts.filter fun receipt => receipt.status = status).map DeliveryReceipt.count).sum

theorem reported_receiptsOf (accepted unknown : ℕ) :
    reported (receiptsOf accepted 0 unknown) "accepted" = accepted ∧
      reported (receiptsOf accepted 0 unknown) "provider_acceptance_unknown" = unknown := by
  unfold reported receiptsOf
  by_cases ha : accepted = 0 <;> by_cases hu : unknown = 0 <;> simp [ha, hu]

theorem countOf_delivered (hcounts : stored.Counts) : countOf "external_delivered" stored.results = 0 := by
  rw [countOf_notification hcounts (by decide)]
  cases hresult : stored.primary .notificationDeviceRealtime with
  | none => rfl
  | some result => exact hcounts.delivered result hresult

theorem reported_settles (hcounts : stored.Counts) (hstatuses : pass.purgeStatuses)
    (hsettles : pass.settles userId stored = true) :
    ∃ external, (pass.run userId stored).external = some external ∧
      ∀ status ∈ COUNTED_STATUSES, reported external.receipts status =
        (pass.scrubbed userId stored).countP fun item => item.status = status := by
  unfold Pass.settles at hsettles
  rw [Bool.and_eq_true, Bool.and_eq_true, Bool.not_eq_true'] at hsettles
  obtain ⟨⟨hopen, hrecorded⟩, hclears⟩ := hsettles
  have hreached := reached_of_clears hclears
  refine ⟨_, by rw [run_external, if_pos ⟨hreached, hopen, hrecorded⟩], fun status hstatus => ?_⟩
  rw [external_receipts ((results_owed hstatuses hreached).mpr hclears),
    countOf_delivered (counts_runBranches hcounts primary_nodup hstatuses),
    ← count_settles hcounts hstatuses hclears hstatus]
  rcases List.mem_pair.mp hstatus with rfl | rfl
  · exact (reported_receiptsOf _ _).1
  · exact (reported_receiptsOf _ _).2

/-! ## Runs -/

/-- The intents that are scrubbed in the pass that settles. -/
def scrubbedAtSettling (userId : String) : List Pass → StoredResults → List PrivateRow
  | [], _ => []
  | pass :: rest, stored =>
    (if pass.settles userId stored then pass.scrubbed userId stored else []) ++
      scrubbedAtSettling userId rest (pass.run userId stored)

/-- The intents that are scrubbed in another pass. -/
def scrubbedElsewhere (userId : String) : List Pass → StoredResults → List PrivateRow
  | [], _ => []
  | pass :: rest, stored =>
    (if pass.settles userId stored then [] else pass.scrubbed userId stored) ++
      scrubbedElsewhere userId rest (pass.run userId stored)

/-- All intents that are scrubbed. -/
def scrubbedInAll (userId : String) : List Pass → StoredResults → List PrivateRow
  | [], _ => []
  | pass :: rest, stored =>
    pass.scrubbed userId stored ++ scrubbedInAll userId rest (pass.run userId stored)

theorem countP_scrubbed (p : PrivateRow → Bool) (passes : List Pass) (stored : StoredResults) :
    (scrubbedInAll userId passes stored).countP p =
      (scrubbedAtSettling userId passes stored).countP p + (scrubbedElsewhere userId passes stored).countP p := by
  induction passes generalizing stored with
  | nil => rfl
  | cons pass rest ih =>
      unfold scrubbedInAll scrubbedAtSettling scrubbedElsewhere
      rw [List.countP_append, List.countP_append, List.countP_append, ih]
      split <;> simp <;> omega

theorem runPasses_cons (rest : List Pass) :
    runPasses userId (pass :: rest) stored = runPasses userId rest (pass.run userId stored) := rfl

variable (userId) in
theorem external_after_settled (passes : List Pass) (h : stored.settled = true) :
    (runPasses userId passes stored).external = stored.external ∧ scrubbedAtSettling userId passes stored = [] := by
  induction passes generalizing stored with
  | nil => exact ⟨rfl, rfl⟩
  | cons pass rest ih =>
      have hexternal : (pass.run userId stored).external = stored.external := external_of_settled h
      have hsettled : (pass.run userId stored).settled = true := by
        unfold StoredResults.settled
        rw [hexternal]
        exact h
      have hnot : pass.settles userId stored = false := by
        unfold Pass.settles
        rw [h]
        rfl
      obtain ⟨hrest, hnil⟩ := ih hsettled
      unfold scrubbedAtSettling
      rw [runPasses_cons, hrest, hexternal, hnil, hnot]
      exact ⟨rfl, rfl⟩

/-- The receipts count what is scrubbed in the pass that settles. -/
theorem reported_run (passes : List Pass) (hcounts : stored.Counts) (hopen : stored.settled = false)
    (hstatuses : ∀ pass ∈ passes, pass.purgeStatuses) (hend : (runPasses userId passes stored).settled = true) :
    ∃ external, (runPasses userId passes stored).external = some external ∧
      ∀ status ∈ COUNTED_STATUSES, reported external.receipts status =
        (scrubbedAtSettling userId passes stored).countP fun item => item.status = status := by
  induction passes generalizing stored with
  | nil =>
      rw [runPasses, List.foldl_nil, hopen] at hend
      cases hend
  | cons pass rest ih =>
      have hpass := hstatuses pass List.mem_cons_self
      have hrest : ∀ pass ∈ rest, pass.purgeStatuses := fun pass hmem => hstatuses pass (List.mem_cons_of_mem _ hmem)
      rw [runPasses_cons] at hend ⊢
      unfold scrubbedAtSettling
      cases hsettles : pass.settles userId stored with
      | true =>
          have hsettled : (pass.run userId stored).settled = true := (settled_run hpass hopen).trans hsettles
          obtain ⟨hexternal, hnil⟩ := external_after_settled userId rest hsettled
          rw [if_pos rfl, hnil, List.append_nil, hexternal]
          exact reported_settles hcounts hpass hsettles
      | false =>
          have hnot : (pass.run userId stored).settled = false := (settled_run hpass hopen).trans hsettles
          exact ih (counts_run hcounts hpass) hnot hrest hend

theorem empty_counts : (StoredResults.mk (fun _ => none) none).Counts where
  others := by simp
  done := by simp
  delivered := by simp

theorem settled_of_finalReceipts {receipts : List DeliveryReceipt} (h : stored.finalReceipts = some receipts) :
    stored.settled = true ∧ ∃ external, stored.external = some external ∧ external.receipts = receipts := by
  unfold StoredResults.finalReceipts at h
  cases hexternal : stored.external with
  | none =>
      rw [hexternal] at h
      cases h
  | some external =>
      rw [hexternal, Option.bind_some] at h
      split at h
      · rename_i hsealed
        cases h
        refine ⟨?_, external, rfl, rfl⟩
        unfold StoredResults.settled BranchResult.isSealed at *
        rw [hexternal, Option.any_some]
        simp only [Bool.and_eq_true] at hsealed
        exact hsealed.1.1.1.1
      · cases h

end

/-- The receipts report every delivery of a status that was scrubbed. -/
def Exact (receipts : List DeliveryReceipt) (scrubbed : List PrivateRow) : Prop :=
  ∀ status ∈ COUNTED_STATUSES,
    reported receipts status = scrubbed.countP fun item => item.status = status

/-- Intents with one of the statuses are scrubbed in the pass that settles, and in no other. -/
def OnlyAtSettling (userId : String) (passes : List Pass) : Prop :=
  ∀ item ∈ scrubbedElsewhere userId passes {}, item.status ∉ COUNTED_STATUSES

theorem receipts_exact_iff (userId : String) (passes : List Pass) (receipts : List DeliveryReceipt)
    (hstatuses : ∀ pass ∈ passes, pass.purgeStatuses)
    (hfinal : (runPasses userId passes {}).finalReceipts = some receipts) :
    Exact receipts (scrubbedInAll userId passes {}) ↔ OnlyAtSettling userId passes := by
  obtain ⟨hend, external, hexternal, hreceipts⟩ := settled_of_finalReceipts hfinal
  obtain ⟨external', hexternal', hreported⟩ := reported_run passes empty_counts rfl hstatuses hend
  have hsame : external' = external := Option.some_inj.mp (hexternal'.symm.trans hexternal)
  rw [hsame, hreceipts] at hreported
  unfold Exact OnlyAtSettling
  constructor
  · intro hexact item hitem hstatus
    have hall := hexact item.status hstatus
    rw [hreported _ hstatus, countP_scrubbed] at hall
    have hpos : 0 < (scrubbedElsewhere userId passes {}).countP fun other => other.status = item.status :=
      List.countP_pos_iff.mpr ⟨item, hitem, decide_eq_true rfl⟩
    omega
  · intro honly status hstatus
    have hnone : ((scrubbedElsewhere userId passes {}).countP fun item => item.status = status) = 0 := by
      refine List.countP_eq_zero.mpr fun item hitem heq => ?_
      rw [← of_decide_eq_true heq] at hstatus
      exact honly item hitem hstatus
    rw [hreported _ hstatus, countP_scrubbed, hnone, Nat.add_zero]

/-! ## Intents on two pages -/

namespace ReceiptSample

/-- A run that comes upon nothing. -/
def quiet : Environment where
  scan := fun _ => some ⟨[], none, 0⟩
  connections := fun _ => some ⟨[], none, 0⟩
  purge := some { status := .complete, quiescent := true, found := false }

def intent (sk status : String) : PrivateRow :=
  { pk := "USER#student", sk := sk, entityType := DELIVERY_INTENT_ENTITY, status := status }

def page (items : List PrivateRow) (next : Option Place) : Environment :=
  { quiet with scan := fun _ => some ⟨items, next, 0⟩ }

/-- Every branch is run, and the notification branch meets an environment of its own. -/
def passOf (env : Environment) : Pass where
  turn := fun branch => .recorded (if branch = .notificationDeviceRealtime then env else quiet)

def onOnePage : List Pass :=
  [passOf (page [intent "1" "accepted", intent "2" "provider_acceptance_unknown"] none), passOf quiet, passOf quiet]

def onTwoPages : List Pass :=
  [passOf (page [intent "1" "accepted"] (some ⟨"USER#student", "1", by decide, by decide⟩)),
    passOf (page [intent "2" "accepted"] none), passOf quiet, passOf quiet]

theorem passOf_purgeStatuses (env : Environment) : (passOf env).purgeStatuses := by
  intro env' henv item status hstatus
  cases henv
  cases hstatus

end ReceiptSample

theorem receipts_exact_iff_sample :
    (runPasses "student" ReceiptSample.onOnePage {}).finalReceipts =
        some [⟨"provider", "accepted", 1, OUTSIDE_PURGE⟩,
          ⟨"provider", "provider_acceptance_unknown", 1, OUTSIDE_PURGE⟩] ∧
      (Exact [⟨"provider", "accepted", 1, OUTSIDE_PURGE⟩,
          ⟨"provider", "provider_acceptance_unknown", 1, OUTSIDE_PURGE⟩]
        (scrubbedInAll "student" ReceiptSample.onOnePage {}) ↔
        OnlyAtSettling "student" ReceiptSample.onOnePage) := by
  have hfinal : (runPasses "student" ReceiptSample.onOnePage {}).finalReceipts =
      some [⟨"provider", "accepted", 1, OUTSIDE_PURGE⟩,
        ⟨"provider", "provider_acceptance_unknown", 1, OUTSIDE_PURGE⟩] := by decide
  refine ⟨hfinal, receipts_exact_iff "student" ReceiptSample.onOnePage _ (fun pass hpass => ?_) hfinal⟩
  have hquiet := ReceiptSample.passOf_purgeStatuses
  rcases List.mem_cons.mp hpass with rfl | hpass
  · exact hquiet _
  · rcases List.mem_pair.mp hpass with rfl | rfl <;> exact hquiet _

/-- Two accepted deliveries on two pages, and a receipt for one. -/
theorem receipts_miss_second_page :
    (runPasses "student" ReceiptSample.onTwoPages {}).finalReceipts =
        some [⟨"provider", "accepted", 1, OUTSIDE_PURGE⟩] ∧
      (scrubbedInAll "student" ReceiptSample.onTwoPages {}).map PrivateRow.status = ["accepted", "accepted"] ∧
      ¬ Exact [⟨"provider", "accepted", 1, OUTSIDE_PURGE⟩] (scrubbedInAll "student" ReceiptSample.onTwoPages {}) := by
  have hscrubbed : (scrubbedInAll "student" ReceiptSample.onTwoPages {}).map PrivateRow.status =
      ["accepted", "accepted"] := by decide
  refine ⟨by decide, hscrubbed, fun hexact => ?_⟩
  have hone := hexact "accepted" (by decide)
  revert hone
  decide +kernel

end Stoa.AccountDeletion
