import Stoa.Model.DeletionReceipts
import Stoa.Verification.AccountDeletion.CleanPasses

/-! # What a run of a branch owes

A run owes nothing exactly if it cleared its page. Only the notification branch counts
deliveries, and it counts those of one page. -/

namespace Stoa.AccountDeletion

/-! ## Runs that leave no debt -/

/-- `purge_report_object_intent` answers one of these for an object that it did not purge. -/
def UNPURGED_STATUSES : List String := ["legal_retention_blocked", "retryable"]

def Environment.purgeStatuses (env : Environment) : Prop :=
  ∀ item status, env.scrub item = .refused status → status ∈ UNPURGED_STATUSES

/-- The page of a branch that scans one family. -/
def Branch.page (branch : Branch) (previous : Option BranchResult) (env : Environment) : Option Page := do
  env.scan (← branch.ends (priorCursor previous)).rows

/-- Every row of the page was dealt with. -/
def Branch.clears (userId : String) (branch : Branch) (previous : Option BranchResult) (env : Environment) : Bool :=
  match branch with
  | .attachments =>
    env.purge.any fun result => PURGE_CURSOR_CATEGORIES.all fun name => result.suppliedDebt name = 0
  | .notificationDeviceRealtime =>
    (branch.ends (priorCursor previous)).any fun start =>
      (env.scan start.rows).any fun notifications =>
        (env.connections start.connections).any fun connections =>
          (notifications.items.all fun item => env.scrub item = .done) &&
            connections.items.all fun item => env.revoke item = .done
  | .accountProfile | .capabilityScope | .questionOcrSession =>
    (branch.page previous env).any fun page =>
      (page.items.filter (branch.selects userId)).all fun item => env.mutate item = .done
  | .identityCrossAccount =>
    env.debtRecorded && (branch.page previous env).any fun page =>
      (page.items.filter (branch.selects userId)).all fun item => env.mutate item = .done
  | _ =>
    (branch.page previous env).any fun page =>
      ((page.items.filter (branch.selects userId)).all fun item => env.scrub item = .done) &&
        (!branch.keepsUnresolved || page.unresolved = 0)

/-! ## Debt -/

def EXTERNAL_COUNTS : List String := ["external_accepted", "external_delivered", "external_unknown"]

/-- What a result counts under a name. -/
def BranchResult.count (result : BranchResult) (name : String) : ℕ :=
  (result.debtCounts.getD .empty).getD name 0

theorem getD_insert (d : OrderedDict String ℕ) (k name : String) (v : ℕ) :
    (d.insert k v).getD name 0 = if name = k then v else d.getD name 0 := by
  unfold OrderedDict.getD
  rw [OrderedDict.get?_insert]
  split <;> rfl

theorem getD_of_not_mem_keys {d : OrderedDict String ℕ} {name : String} (h : name ∉ d.keys) :
    d.getD name 0 = 0 := by
  unfold OrderedDict.getD
  rw [Option.not_isSome_iff_eq_none.mp fun hsome => h (OrderedDict.mem_keys_iff.mpr hsome)]
  rfl

/-- Nothing is owed under any name that blocks. -/
theorem owed_eq_zero {result : BranchResult} :
    result.owed = 0 ↔ ∀ name ∉ NONBLOCKING_DEBT, result.count name = 0 := by
  unfold BranchResult.owed BranchResult.count
  rw [List.sum_eq_zero_iff_forall_eq_nat]
  constructor
  · intro h name hname
    cases hget : (result.debtCounts.getD .empty).get? name with
    | none =>
        rw [OrderedDict.getD, hget]
        rfl
    | some n =>
        have hmem := OrderedDict.get?_eq_some.mp hget
        rw [OrderedDict.getD, hget]
        exact h n (List.mem_map.mpr ⟨(name, n), List.mem_filter.mpr ⟨hmem, decide_eq_true hname⟩, rfl⟩)
  · intro h n hn
    obtain ⟨⟨name, n'⟩, hentry, rfl⟩ := List.mem_map.mp hn
    obtain ⟨hmem, hname⟩ := List.mem_filter.mp hentry
    have hzero := h name (of_decide_eq_true hname)
    rw [OrderedDict.getD, OrderedDict.get?_eq_some.mpr hmem] at hzero
    exact hzero

/-! ### Tallies -/

theorem foldl_debt (debtOf : PrivateRow → Option String) {step : Tally → PrivateRow → Tally}
    (hstep : ∀ found item name, (step found item).debt.getD name 0 = 0 ↔
      found.debt.getD name 0 = 0 ∧ debtOf item ≠ some name)
    (items : List PrivateRow) (found : Tally) (name : String) :
    (items.foldl step found).debt.getD name 0 = 0 ↔
      found.debt.getD name 0 = 0 ∧ name ∉ items.filterMap debtOf := by
  induction items generalizing found with
  | nil => simp
  | cons item items ih =>
      rw [List.foldl_cons, ih, hstep, List.filterMap_cons]
      cases hdebt : debtOf item with
      | none => simp
      | some owed => simp [and_assoc, eq_comm]

theorem tally_debt (debtOf : PrivateRow → Option String) (items : List PrivateRow) (name : String) :
    (tally debtOf items).debt.getD name 0 = 0 ↔ name ∉ items.filterMap debtOf := by
  unfold tally
  rw [foldl_debt debtOf ?_]
  · exact and_iff_right rfl
  · intro found item name
    cases hdebt : debtOf item with
    | none => simp
    | some owed =>
        simp only [getD_insert, ne_eq, Option.some_inj]
        by_cases h : name = owed
        · simp [h]
        · simp [h, Ne.symm h]

/-- The debt of rows whose owner is not established. -/
def unresolvedDebt (unresolved : ℕ) : List String := if unresolved = 0 then [] else ["unresolved_lineage"]

theorem withUnresolved_debt (found : Tally) (unresolved : ℕ) (name : String) :
    (found.withUnresolved unresolved).debt.getD name 0 = 0 ↔
      found.debt.getD name 0 = 0 ∧ name ∉ unresolvedDebt unresolved := by
  unfold Tally.withUnresolved unresolvedDebt
  by_cases h : unresolved = 0
  · simp [h]
  · by_cases hname : name = "unresolved_lineage" <;> simp [h, hname, getD_insert]

/-- The name under which a report object is owed. -/
def objectDebt (outcome : PrivateRow → Scrub) (item : PrivateRow) : Option String :=
  match outcome item with
  | .done => none
  | .refused status => some status
  | _ => some item.identity

theorem tallyObjects_debt (outcome : PrivateRow → Scrub) (items : List PrivateRow) (name : String) :
    (tallyObjects outcome items).debt.getD name 0 = 0 ↔ name ∉ items.filterMap (objectDebt outcome) := by
  unfold tallyObjects
  rw [foldl_debt (objectDebt outcome) ?_]
  · exact and_iff_right rfl
  · intro found item name
    unfold objectDebt
    cases outcome item with
    | done => simp
    | raised => by_cases h : name = item.identity <;> simp [getD_insert, h, eq_comm]
    | incomplete => by_cases h : name = item.identity <;> simp [getD_insert, h, eq_comm]
    | refused status => by_cases h : name = status <;> simp [getD_insert, h, eq_comm]

/-! ### Pages -/

section

variable {previous : Option BranchResult} {cursor : Option Cursor} {anyRow : Bool} {found : Tally} {name : String}

theorem count_of_entries_nil {debt : OrderedDict String ℕ} (h : debt.entries.isEmpty = true) :
    debt.getD name 0 = 0 := by
  refine getD_of_not_mem_keys ?_
  rw [OrderedDict.keys, List.isEmpty_iff.mp h]
  exact List.not_mem_nil

theorem getD_of_itemDebt (counts : List String) {debt : OrderedDict String ℕ}
    (h : itemDebt counts debt = false) (hname : name ∉ counts) : debt.getD name 0 = 0 := by
  refine getD_of_not_mem_keys fun hmem => ?_
  have hcount := List.any_eq_false.mp h name hmem
  exact hcount (decide_eq_true hname)

theorem count_closePage (hname : name ∉ passCounts) :
    (closePage previous cursor anyRow found).count name = found.debt.getD name 0 := by
  have hpass : name ≠ "pass_dirty" := fun h => hname (h ▸ by decide)
  have hprocessed : name ≠ "processed" := fun h => hname (h ▸ by decide)
  have hsame : ∀ dirty : ℕ, ((found.debt.insert "pass_dirty" dirty).insert "processed"
      found.processed).getD name 0 = found.debt.getD name 0 := fun dirty => by
    rw [getD_insert, if_neg hprocessed, getD_insert, if_neg hpass]
  unfold closePage
  cases cursor with
  | some cursor => exact hsame _
  | none =>
      dsimp only
      split
      · split
        · exact hsame _
        · rename_i hitem
          rw [← hsame, getD_of_itemDebt _ (Bool.not_eq_true _ ▸ hitem) hname]
          exact getD_of_itemDebt passCounts rfl hname
      · rename_i hdirty
        rw [Bool.or_eq_true, not_or, Bool.not_eq_true, Bool.not_eq_true, Bool.not_eq_false'] at hdirty
        rw [count_of_entries_nil hdirty.2]
        rfl

theorem count_closeDebtFirst {counts : List String} {policy : OrderedDict String ℕ → OrderedDict String ℕ}
    {settled : OrderedDict String ℕ} (hname : name ∉ counts) (hpass : name ∉ passCounts)
    (hpolicy : ∀ debt, (policy debt).getD name 0 = debt.getD name 0) (hsettled : settled.getD name 0 = 0) :
    (closeDebtFirst counts previous cursor anyRow found policy settled).count name =
      found.debt.getD name 0 := by
  have hdirty : name ≠ "pass_dirty" := fun h => hpass (h ▸ by decide)
  have hprocessed : name ≠ "processed" := fun h => hpass (h ▸ by decide)
  have hsame : ∀ dirty : ℕ, (policy ((found.debt.insert "pass_dirty" dirty).insert "processed"
      found.processed)).getD name 0 = found.debt.getD name 0 := fun dirty => by
    rw [hpolicy, getD_insert, if_neg hprocessed, getD_insert, if_neg hdirty]
  unfold closeDebtFirst
  cases cursor with
  | some cursor => exact hsame _
  | none =>
      dsimp only
      split
      · exact hsame _
      · rename_i hitem
        have hzero := (hsame _).symm.trans (getD_of_itemDebt _ (Bool.not_eq_true _ ▸ hitem) hname)
        split
        · rw [hzero]
          exact (hpolicy _).trans (getD_of_itemDebt passCounts rfl hpass)
        · rw [hzero]
          exact hsettled

end

/-! ### What a run owes -/

/-- A run owes something unless it cleared its page, and counts no delivery. -/
structure Owes (result : BranchResult) (clear : Bool) : Prop where
  owed : result.owed = 0 ↔ clear = true
  external : ∀ name ∈ EXTERNAL_COUNTS, result.count name = 0

/-- The rows that are owed, by the names of their debt. -/
theorem owes_of_debts (debts : List String) {result : BranchResult} {clear : Bool}
    (hcount : ∀ name ∉ passCounts, result.count name = 0 ↔ name ∉ debts)
    (hblocking : ∀ name ∈ debts, name ∉ NONBLOCKING_DEBT) (hclear : debts = [] ↔ clear = true) :
    Owes result clear := by
  have hpass : ∀ name ∉ NONBLOCKING_DEBT, name ∉ passCounts := by
    intro name hname hmem
    refine hname ?_
    rcases List.mem_pair.mp hmem with rfl | rfl <;> decide
  refine ⟨?_, ?_⟩
  · rw [owed_eq_zero, ← hclear, List.eq_nil_iff_forall_not_mem]
    constructor
    · intro h name hmem
      exact (hcount name (hpass name (hblocking name hmem))).mp (h name (hblocking name hmem)) hmem
    · intro h name hname
      exact (hcount name (hpass name hname)).mpr (h name)
  · intro name hname
    have hnon : name ∈ NONBLOCKING_DEBT ∧ name ∉ passCounts := by
      unfold EXTERNAL_COUNTS at hname
      rcases List.mem_cons.mp hname with rfl | hname
      · decide
      · rcases List.mem_pair.mp hname with rfl | rfl <;> decide
    exact (hcount name hnon.2).mpr fun hmem => hblocking name hmem hnon.1

/-! ### Names of debt block -/

theorem identity_blocks (item : PrivateRow) : item.identity ∉ NONBLOCKING_DEBT := by
  intro h
  have hbar : '|' ∈ item.identity.toList := by
    simp [PrivateRow.identity]
  have hplain : ∀ name ∈ NONBLOCKING_DEBT, '|' ∉ name.toList := by decide
  exact hplain _ h hbar

theorem colon_blocks {before after : String} (hcolon : ':' ∈ before.toList) :
    before ++ after ∉ NONBLOCKING_DEBT := by
  intro h
  have hmem : ':' ∈ (before ++ after).toList := by
    rw [String.toList_append]
    exact List.mem_append_left _ hcolon
  have hplain : ∀ name ∈ NONBLOCKING_DEBT, ':' ∉ name.toList := by decide
  exact hplain _ h hmem

theorem rowDebt_blocks {outcome : PrivateRow → Scrub} {items : List PrivateRow} :
    ∀ name ∈ items.filterMap (rowDebt outcome), name ∉ NONBLOCKING_DEBT := by
  intro name h
  obtain ⟨item, -, hdebt⟩ := List.mem_filterMap.mp h
  unfold rowDebt at hdebt
  split at hdebt
  · cases hdebt
  · cases hdebt
    exact identity_blocks item

theorem unresolvedDebt_blocks {unresolved : ℕ} :
    ∀ name ∈ unresolvedDebt unresolved, name ∉ NONBLOCKING_DEBT := by
  intro name h
  unfold unresolvedDebt at h
  split at h
  · cases h
  · rw [List.mem_singleton.mp h]
    decide

theorem conversationDebt_blocks {outcome : PrivateRow → Scrub} {items : List PrivateRow} :
    ∀ name ∈ items.filterMap (conversationDebt outcome), name ∉ NONBLOCKING_DEBT := by
  intro name h
  obtain ⟨item, -, hdebt⟩ := List.mem_filterMap.mp h
  unfold conversationDebt at hdebt
  split at hdebt
  · cases hdebt
  · cases hdebt
    exact colon_blocks (by decide)
  · cases hdebt
    exact identity_blocks item

theorem signalDebt_blocks {outcome : PrivateRow → Scrub} {items : List PrivateRow} :
    ∀ name ∈ items.filterMap (signalDebt outcome), name ∉ NONBLOCKING_DEBT := by
  intro name h
  obtain ⟨item, -, hdebt⟩ := List.mem_filterMap.mp h
  unfold signalDebt at hdebt
  split at hdebt
  · cases hdebt
  · cases hdebt
    exact colon_blocks (by decide)

theorem familyDebt_blocks {before : String} (hcolon : ':' ∈ before.toList) {outcome : PrivateRow → Scrub}
    {items : List PrivateRow} : ∀ name ∈ items.filterMap (familyDebt before outcome), name ∉ NONBLOCKING_DEBT := by
  intro name h
  obtain ⟨item, -, hdebt⟩ := List.mem_filterMap.mp h
  unfold familyDebt at hdebt
  split at hdebt
  · cases hdebt
  · cases hdebt
    exact colon_blocks hcolon

theorem objectDebt_blocks {env : Environment} (hstatuses : env.purgeStatuses) {items : List PrivateRow} :
    ∀ name ∈ items.filterMap (objectDebt env.scrub), name ∉ NONBLOCKING_DEBT := by
  intro name h
  obtain ⟨item, -, hdebt⟩ := List.mem_filterMap.mp h
  unfold objectDebt at hdebt
  split at hdebt
  · cases hdebt
  · rename_i status hstatus
    have hknown := hstatuses item status hstatus
    rw [← Option.some_inj.mp hdebt]
    rcases List.mem_pair.mp hknown with h | h <;> rw [h] <;> decide
  · cases hdebt
    exact identity_blocks item

/-- There is no debt of the rows where all of them went through. -/
theorem filterMap_debt_eq_nil {outcome : PrivateRow → Scrub} {debtOf : PrivateRow → Option String}
    (hdebt : ∀ item, debtOf item = none ↔ outcome item = .done) (items : List PrivateRow) :
    items.filterMap debtOf = [] ↔ (items.all fun item => outcome item = .done) = true := by
  rw [List.filterMap_eq_nil_iff, List.all_eq_true]
  simp [hdebt]

theorem rowDebt_eq_none {outcome : PrivateRow → Scrub} (item : PrivateRow) :
    rowDebt outcome item = none ↔ outcome item = .done := by
  unfold rowDebt
  split <;> simp [*]

theorem conversationDebt_eq_none {outcome : PrivateRow → Scrub} (item : PrivateRow) :
    conversationDebt outcome item = none ↔ outcome item = .done := by
  unfold conversationDebt
  cases outcome item <;> simp

theorem signalDebt_eq_none {outcome : PrivateRow → Scrub} (item : PrivateRow) :
    signalDebt outcome item = none ↔ outcome item = .done := by
  unfold signalDebt
  split <;> simp [*]

theorem familyDebt_eq_none {before : String} {outcome : PrivateRow → Scrub} (item : PrivateRow) :
    familyDebt before outcome item = none ↔ outcome item = .done := by
  unfold familyDebt
  split <;> simp [*]

theorem objectDebt_eq_none {outcome : PrivateRow → Scrub} (item : PrivateRow) :
    objectDebt outcome item = none ↔ outcome item = .done := by
  unfold objectDebt
  cases outcome item <;> simp

theorem unresolvedDebt_eq_nil (unresolved : ℕ) : unresolvedDebt unresolved = [] ↔ unresolved = 0 := by
  unfold unresolvedDebt
  split <;> simp [*]

/-! ### Branches -/

section

variable {userId : String} {branch : Branch} {previous : Option BranchResult} {env : Environment}

/-- The debt of a branch whose handler raises. -/
def raisedDebt : BranchResult := { status := .retryable, debtCounts := some (.ofPairs [("dependency", 1)]) }

theorem owes_raisedDebt : Owes raisedDebt false := by
  refine ⟨⟨fun h => ?_, fun h => (Bool.false_ne_true h).elim⟩, by decide⟩
  have hone : raisedDebt.count "dependency" = 0 := owed_eq_zero.mp h _ (by decide)
  exact absurd hone (by decide)

theorem owes_none {result : BranchResult} (h : result.debtCounts = some .empty) : Owes result true :=
  owes_of_debts [] (fun name _ => iff_of_true (by rw [BranchResult.count, h]; rfl) List.not_mem_nil)
    (by simp) (by simp)

/-- A result that counts nothing but the rows it processed. -/
theorem owes_counted {result : BranchResult} {a b : ℕ}
    (h : result.debtCounts = some (.ofPairs [("pass_dirty", a), ("processed", b)])) : Owes result true := by
  refine owes_of_debts [] (fun name hname => iff_of_true ?_ List.not_mem_nil) (by simp) (by simp)
  rw [BranchResult.count, h]
  exact getD_of_itemDebt passCounts rfl hname

theorem find_not_done (items : List PrivateRow) (mutate : PrivateRow → Mutation) :
    (items.map mutate).find? (fun mutation => mutation ≠ .done) = none ↔
      (items.all fun item => mutate item = .done) = true := by
  rw [List.find?_eq_none]
  simp

theorem owes_base {predicate : PrivateRow → Bool} :
    Owes ((runBaseBranch predicate previous env).getD raisedDebt)
      (((resume (priorCursor previous)).bind env.scan).any fun page =>
        (page.items.filter predicate).all fun item => env.mutate item = .done) := by
  unfold runBaseBranch
  cases resume (priorCursor previous) with
  | none => exact owes_raisedDebt
  | some start =>
      cases hpage : env.scan start with
      | none =>
          simp only [Option.bind_eq_bind, Option.bind_some, hpage, Option.bind_none, Option.getD_none,
            Option.any_none]
          exact owes_raisedDebt
      | some page =>
          simp only [Option.bind_eq_bind, Option.bind_some, hpage, Option.any_some]
          have hfind := find_not_done (page.items.filter predicate) env.mutate
          generalize (page.items.filter predicate).all (fun item => env.mutate item = .done) = clear at hfind ⊢
          split
          · rename_i hconflict
            have hclear : clear = false := by
              rw [← Bool.not_eq_true, ← hfind, hconflict]
              simp
            rw [hclear]
            refine ⟨⟨fun h => ?_, fun h => (Bool.false_ne_true h).elim⟩, ?_⟩
            · exact absurd (owed_eq_zero.mp h "row_conflict" (by decide)) Nat.one_ne_zero
            · intro name hname
              unfold EXTERNAL_COUNTS at hname
              rcases List.mem_cons.mp hname with rfl | hname
              · rfl
              · rcases List.mem_pair.mp hname with rfl | rfl <;> rfl
          · rename_i mutation hne hfound
            have hclear : clear = false := by
              rw [← Bool.not_eq_true, ← hfind, hfound]
              simp
            rw [hclear]
            exact owes_raisedDebt
          · rename_i hfound
            rw [hfind.mp hfound]
            split
            · exact owes_counted rfl
            · split
              · exact owes_counted rfl
              · exact owes_none rfl

theorem page_eq {start : Option (Option Place)}
    (hends : branch.ends (priorCursor previous) = start.map fun place => ⟨place, none⟩) :
    branch.page previous env = start.bind env.scan := by
  unfold Branch.page
  rw [hends]
  cases start <;> rfl

/-- One scan, and a page that is closed by what was found on it. -/
theorem owes_page {start : Option (Option Place)} {close : Page → BranchResult} {clear : Page → Bool}
    (hends : branch.ends (priorCursor previous) = start.map fun place => ⟨place, none⟩)
    (hclose : ∀ page, Owes (close page) (clear page)) :
    Owes ((do let page ← env.scan (← start); return close page : Option BranchResult).getD raisedDebt)
      ((branch.page previous env).any clear) := by
  rw [page_eq hends]
  cases start with
  | none => exact owes_raisedDebt
  | some place =>
      cases hpage : env.scan place with
      | none =>
          simp only [Option.bind_eq_bind, Option.bind_some, hpage, Option.bind_none, Option.getD_none,
            Option.any_none]
          exact owes_raisedDebt
      | some page =>
          simp only [Option.bind_eq_bind, Option.bind_some, hpage, Option.any_some]
          exact hclose page

theorem owes_report (family : ReportFamily) (hselects : branch.selects userId = family.selects)
    (hkeeps : branch.keepsUnresolved = true)
    (hends : branch.ends (priorCursor previous) = (resume (priorCursor previous)).map fun place => ⟨place, none⟩) :
    Owes ((runReportRowBranch family previous env).getD raisedDebt)
      ((branch.page previous env).any fun page =>
        ((page.items.filter (branch.selects userId)).all fun item => env.scrub item = .done) &&
          (!branch.keepsUnresolved || page.unresolved = 0)) := by
  refine owes_page hends fun page => owes_of_debts
    ((page.items.filter family.selects).filterMap (rowDebt env.scrub) ++ unresolvedDebt page.unresolved)
    (fun name hname => ?_) (fun name hmem => ?_) ?_
  · rw [count_closePage hname, withUnresolved_debt, tally_debt, List.mem_append, not_or]
  · exact (List.mem_append.mp hmem).elim (rowDebt_blocks name) (unresolvedDebt_blocks name)
  · rw [List.append_eq_nil_iff, filterMap_debt_eq_nil rowDebt_eq_none, unresolvedDebt_eq_nil, hselects,
      hkeeps, Bool.and_eq_true]
    simp

theorem owes_learning {debtOf : PrivateRow → Option String} (hselects : branch.selects userId = fun _ => true)
    (hkeeps : branch.keepsUnresolved = false)
    (hends : branch.ends (priorCursor previous) = (resume (priorCursor previous)).map fun place => ⟨place, none⟩)
    (hnone : ∀ item, debtOf item = none ↔ env.scrub item = .done)
    (hblocks : ∀ items : List PrivateRow, ∀ name ∈ items.filterMap debtOf, name ∉ NONBLOCKING_DEBT) :
    Owes ((do
        let page ← env.scan (← resume (priorCursor previous))
        return closeDebtFirst passCounts previous (page.cursor.map Place.cursor) (!page.items.isEmpty)
          (tally debtOf page.items) id .empty : Option BranchResult).getD raisedDebt)
      ((branch.page previous env).any fun page =>
        ((page.items.filter (branch.selects userId)).all fun item => env.scrub item = .done) &&
          (!branch.keepsUnresolved || page.unresolved = 0)) := by
  refine owes_page hends fun page => owes_of_debts (page.items.filterMap debtOf)
    (fun name hname => ?_) (hblocks page.items) ?_
  · rw [count_closeDebtFirst hname hname (fun debt => by rw [id_eq debt]) (getD_of_not_mem_keys List.not_mem_nil),
      tally_debt]
  · rw [filterMap_debt_eq_nil hnone, hselects, hkeeps, List.filter_true]
    simp

theorem purge_getD (purge : AttachmentPurge) (name : String) :
    purge.debtCounts.getD name 0 = if name ∈ PURGE_CURSOR_CATEGORIES then purge.suppliedDebt name else 0 := by
  unfold AttachmentPurge.debtCounts OrderedDict.getD
  rw [OrderedDict.get?_ofPairs_map]
  cases hfind : PURGE_CURSOR_CATEGORIES.reverse.find? fun category => category = name with
  | none =>
      rw [if_neg fun hmem => List.find?_eq_none.mp hfind name (List.mem_reverse.mpr hmem) (decide_eq_true rfl)]
      rfl
  | some category =>
      have hname : category = name := by simpa using List.find?_some hfind
      rw [← hname, if_pos (List.mem_reverse.mp (List.mem_of_find?_eq_some hfind))]
      rfl

theorem owes_purge {result : BranchResult} {purge : AttachmentPurge} (h : result.debtCounts = some purge.debtCounts) :
    Owes result (PURGE_CURSOR_CATEGORIES.all fun name => purge.suppliedDebt name = 0) := by
  have hcount : ∀ name, result.count name =
      if name ∈ PURGE_CURSOR_CATEGORIES then purge.suppliedDebt name else 0 := fun name => by
    rw [← purge_getD, BranchResult.count, h, Option.getD_some]
  refine ⟨?_, ?_⟩
  · rw [owed_eq_zero, List.all_eq_true]
    constructor
    · intro h name hname
      have hblocks : ∀ name ∈ PURGE_CURSOR_CATEGORIES, name ∉ NONBLOCKING_DEBT := by decide
      rw [← h name (hblocks name hname), hcount, if_pos hname]
      exact decide_eq_true rfl
    · intro h name _
      rw [hcount]
      split
      · exact of_decide_eq_true (h name ‹_›)
      · rfl
  · intro name hname
    have hnot : ∀ name ∈ EXTERNAL_COUNTS, name ∉ PURGE_CURSOR_CATEGORIES := by decide
    rw [hcount, if_neg (hnot name hname)]

theorem owes_attachments :
    Owes ((attachmentsBranch previous env).getD raisedDebt) (Branch.attachments.clears userId previous env) := by
  unfold attachmentsBranch Branch.clears
  cases env.purge with
  | none => exact owes_raisedDebt
  | some purge => exact owes_purge rfl

theorem owes_identity :
    Owes ((identityCrossAccountBranch previous env).getD raisedDebt)
      (Branch.identityCrossAccount.clears userId previous env) := by
  unfold Branch.clears identityCrossAccountBranch
  cases env.debtRecorded with
  | false => exact owes_raisedDebt
  | true =>
      rw [page_eq rfl]
      exact owes_base

theorem owes_handler (hbranch : branch ≠ .notificationDeviceRealtime)
    (hstatuses : branch = .reportArtifacts → env.purgeStatuses) :
    Owes ((branch.handler userId previous env).getD raisedDebt) (branch.clears userId previous env) := by
  cases branch with
  | accountProfile =>
      unfold Branch.clears
      rw [page_eq rfl]
      exact owes_base
  | identityCrossAccount => exact owes_identity
  | capabilityScope =>
      unfold Branch.clears
      rw [page_eq rfl]
      exact owes_base
  | questionOcrSession =>
      unfold Branch.clears
      rw [page_eq rfl]
      exact owes_base
  | attachments => exact owes_attachments
  | moderation =>
      refine owes_page rfl fun page => owes_of_debts
        (page.items.filterMap (rowDebt env.scrub) ++ unresolvedDebt page.unresolved)
        (fun name hname => ?_) (fun name hmem => ?_) ?_
      · rw [count_closePage hname, withUnresolved_debt, tally_debt, List.mem_append, not_or]
      · exact (List.mem_append.mp hmem).elim (rowDebt_blocks name) (unresolvedDebt_blocks name)
      · rw [List.append_eq_nil_iff, filterMap_debt_eq_nil rowDebt_eq_none, unresolvedDebt_eq_nil,
          Bool.and_eq_true]
        simp [Branch.selects, Branch.keepsUnresolved]
  | reportRecords => exact owes_report .records rfl rfl rfl
  | reportArtifacts =>
      refine owes_page rfl fun page => owes_of_debts
        ((page.items.filter isReportObject).filterMap (objectDebt env.scrub))
        (fun name hname => ?_) (objectDebt_blocks (hstatuses rfl)) ?_
      · rw [count_closePage hname, tallyObjects_debt]
      · rw [filterMap_debt_eq_nil objectDebt_eq_none, Bool.and_eq_true]
        simp [Branch.selects, Branch.keepsUnresolved]
  | supportRecoveryFeed => exact owes_report .support rfl rfl rfl
  | conversationMessages =>
      refine owes_page rfl fun page => owes_of_debts
        (page.items.filterMap (conversationDebt env.scrub))
        (fun name hname => ?_) conversationDebt_blocks ?_
      · rw [count_closePage hname, tally_debt]
      · rw [filterMap_debt_eq_nil conversationDebt_eq_none, Bool.and_eq_true]
        simp [Branch.selects, Branch.keepsUnresolved]
  | practiceProgress => exact owes_learning rfl rfl rfl rowDebt_eq_none fun _ => rowDebt_blocks
  | adaptiveAssignment => exact owes_learning rfl rfl rfl rowDebt_eq_none fun _ => rowDebt_blocks
  | learningMemory => exact owes_learning rfl rfl rfl rowDebt_eq_none fun _ => rowDebt_blocks
  | aiTeacherDraft => exact owes_learning rfl rfl rfl rowDebt_eq_none fun _ => rowDebt_blocks
  | curriculumSignal => exact owes_learning rfl rfl rfl signalDebt_eq_none fun _ => signalDebt_blocks
  | notificationDeviceRealtime => exact absurd rfl hbranch

/-! ### Notifications -/

/-- The two pages of a run of the notification branch. -/
def notificationPages (previous : Option BranchResult) (env : Environment) : Option (Page × Page) := do
  let start ← Branch.notificationDeviceRealtime.ends (priorCursor previous)
  return (← env.scan start.rows, ← env.connections start.connections)

/-- The delivery intents that a run comes upon. -/
def intentsOf (previous : Option BranchResult) (env : Environment) : List PrivateRow :=
  ((notificationPages previous env).map fun pages =>
    pages.1.items.filter fun item => item.entityType = DELIVERY_INTENT_ENTITY).getD []

/-- Those among them that are scrubbed. -/
def scrubbedIntents (previous : Option BranchResult) (env : Environment) : List PrivateRow :=
  (intentsOf previous env).filter fun item => env.scrub item = .done

theorem foldl_insert_debt {entries : List (String × ℕ)} (hpos : ∀ e ∈ entries, e.2 ≠ 0)
    (d : OrderedDict String ℕ) (name : String) :
    (entries.foldl (fun d e => d.insert e.1 e.2) d).getD name 0 = 0 ↔
      d.getD name 0 = 0 ∧ name ∉ entries.map Prod.fst := by
  induction entries generalizing d with
  | nil => simp
  | cons e entries ih =>
      rw [List.foldl_cons, ih fun e' he' => hpos e' (List.mem_cons_of_mem _ he'), getD_insert, List.map_cons,
        List.mem_cons, not_or]
      have he := hpos e List.mem_cons_self
      by_cases hname : name = e.1 <;> simp [hname, he]

theorem tally_entries (debtOf : PrivateRow → Option String) (items : List PrivateRow) :
    ∀ e ∈ (tally debtOf items).debt.entries, e.2 ≠ 0 := by
  unfold tally
  induction items using List.reverseRecOn with
  | nil =>
      intro e he
      cases he
  | append_singleton items item ih =>
      rw [List.foldl_append, List.foldl_cons, List.foldl_nil]
      cases debtOf item with
      | none => exact ih
      | some name =>
          intro e he
          rcases OrderedDict.mem_entries_insert he with rfl | he
          · exact Nat.one_ne_zero
          · exact ih e he

theorem mem_tally_keys (debtOf : PrivateRow → Option String) (items : List PrivateRow) (name : String) :
    name ∉ (tally debtOf items).debt.entries.map Prod.fst ↔ name ∉ items.filterMap debtOf := by
  rw [← tally_debt]
  constructor
  · intro h
    exact getD_of_not_mem_keys h
  · intro h hmem
    obtain ⟨e, he, rfl⟩ := List.mem_map.mp hmem
    rw [OrderedDict.getD, OrderedDict.get?_eq_some.mpr (show (e.1, e.2) ∈ _ from he)] at h
    exact tally_entries debtOf items e he h

/-- What the page of a notification run is closed with. -/
def closeNotifications (previous : Option BranchResult) (env : Environment) (notifications connections : Page) :
    BranchResult :=
  let scrubbed := tally (familyDebt "notification:" env.scrub) notifications.items
  let revoked := tally (familyDebt "connection:" env.revoke) connections.items
  let debt := revoked.debt.entries.foldl (fun d e => d.insert e.1 e.2) scrubbed.debt
  let external := externalCounts DELIVERY_INTENT_ENTITY notifications.items
  let policy := fun d : OrderedDict String ℕ =>
    (d.insert "external_accepted" external.1).insert "external_unknown" external.2
  closeDebtFirst notificationCounts previous (nextCursor notifications.cursor connections.cursor)
    (!notifications.items.isEmpty || !connections.items.isEmpty)
    ⟨scrubbed.processed + revoked.processed, debt⟩ policy (policy .empty)

theorem notification_eq :
    notificationDeviceRealtimeBranch previous env =
      (notificationPages previous env).map fun pages => closeNotifications previous env pages.1 pages.2 := by
  unfold notificationDeviceRealtimeBranch notificationPages Branch.ends
  dsimp only
  generalize familyPlace "notification" ((priorCursor previous).getD .empty) = rows
  generalize familyPlace "connection" ((priorCursor previous).getD .empty) = connections
  cases rows with
  | none => rfl
  | some rows =>
      cases connections with
      | none => cases env.scan rows <;> simp
      | some connections =>
          cases hscan : env.scan rows with
          | none => simp [hscan]
          | some page => cases hconnections : env.connections connections <;> simp [hscan, hconnections, closeNotifications]

/-- Whatever a page is closed with, `policy` has had the last word on its counts. -/
theorem count_policy {counts : List String} {policy : OrderedDict String ℕ → OrderedDict String ℕ}
    {cursor : Option Cursor} {anyRow : Bool} {found : Tally} {name : String} {n : ℕ}
    (hpolicy : ∀ debt, (policy debt).getD name 0 = n) :
    (closeDebtFirst counts previous cursor anyRow found policy (policy .empty)).count name = n := by
  unfold closeDebtFirst
  cases cursor with
  | some cursor => exact hpolicy _
  | none =>
      dsimp only
      split
      · exact hpolicy _
      · split
        · exact hpolicy _
        · exact hpolicy _

theorem done_closeDebtFirst {counts : List String} {policy : OrderedDict String ℕ → OrderedDict String ℕ}
    {settled : OrderedDict String ℕ} {cursor : Option Cursor} {anyRow : Bool} {found : Tally}
    (h : (closeDebtFirst counts previous cursor anyRow found policy settled).done = true) : anyRow = false := by
  unfold closeDebtFirst at h
  cases cursor with
  | some cursor => cases h
  | none =>
      dsimp only at h
      split at h
      · cases h
      · split at h
        · cases h
        · rename_i hdirty
          rw [Bool.or_eq_true, not_or, Bool.or_eq_true, not_or] at hdirty
          exact Bool.not_eq_true _ ▸ hdirty.1.2

/-- The rows of the two pages that are owed. -/
def pageDebts (env : Environment) (notifications connections : Page) : List String :=
  notifications.items.filterMap (familyDebt "notification:" env.scrub) ++
    connections.items.filterMap (familyDebt "connection:" env.revoke)

theorem pageDebts_blocks {notifications connections : Page} :
    ∀ name ∈ pageDebts env notifications connections, name ∉ NONBLOCKING_DEBT := by
  intro name hmem
  exact (List.mem_append.mp hmem).elim (familyDebt_blocks (by decide) name) (familyDebt_blocks (by decide) name)

theorem count_closeNotifications {name : String} (hname : name ∉ notificationCounts)
    (notifications connections : Page) :
    (closeNotifications previous env notifications connections).count name = 0 ↔
      name ∉ pageDebts env notifications connections := by
  have hplain : name ∉ passCounts ∧ name ≠ "external_accepted" ∧ name ≠ "external_unknown" := by
    simp only [notificationCounts, passCounts, List.mem_cons, List.not_mem_nil, or_false, not_or] at hname ⊢
    tauto
  obtain ⟨hpass, haccepted, hunknown⟩ := hplain
  unfold closeNotifications pageDebts
  rw [count_closeDebtFirst hname hpass, foldl_insert_debt (tally_entries _ _), tally_debt, mem_tally_keys,
    List.mem_append, not_or]
  · intro debt
    rw [getD_insert, if_neg hunknown, getD_insert, if_neg haccepted]
  · rw [getD_insert, if_neg hunknown, getD_insert, if_neg haccepted]
    exact getD_of_not_mem_keys List.not_mem_nil

theorem owed_closeNotifications (notifications connections : Page) :
    (closeNotifications previous env notifications connections).owed = 0 ↔
      ((notifications.items.all fun item => env.scrub item = .done) &&
        connections.items.all fun item => env.revoke item = .done) = true := by
  have hrows : notifications.items.filterMap (familyDebt "notification:" env.scrub) = [] ↔ _ :=
    filterMap_debt_eq_nil (fun item => familyDebt_eq_none item) _
  have hconnections : connections.items.filterMap (familyDebt "connection:" env.revoke) = [] ↔ _ :=
    filterMap_debt_eq_nil (fun item => familyDebt_eq_none item) _
  have hcounts : ∀ name ∉ NONBLOCKING_DEBT, name ∉ notificationCounts := by
    intro name hname
    simp only [NONBLOCKING_DEBT, notificationCounts, List.mem_cons, List.not_mem_nil, or_false, not_or] at hname ⊢
    tauto
  rw [Bool.and_eq_true, ← hrows, ← hconnections, ← List.append_eq_nil_iff, owed_eq_zero]
  change _ ↔ pageDebts env notifications connections = []
  rw [List.eq_nil_iff_forall_not_mem]
  constructor
  · intro h name hmem
    have hname := pageDebts_blocks name hmem
    exact (count_closeNotifications (hcounts name hname) _ _).mp (h name hname) hmem
  · intro h name hname
    exact (count_closeNotifications (hcounts name hname) _ _).mpr (h name)

theorem clears_notification :
    Branch.notificationDeviceRealtime.clears userId previous env =
      (notificationPages previous env).any fun pages =>
        (pages.1.items.all fun item => env.scrub item = .done) &&
          pages.2.items.all fun item => env.revoke item = .done := by
  unfold Branch.clears notificationPages
  cases Branch.notificationDeviceRealtime.ends (priorCursor previous) with
  | none => rfl
  | some start =>
      cases hscan : env.scan start.rows with
      | none => simp [hscan]
      | some notifications => cases hconnections : env.connections start.connections <;> simp [hscan, hconnections]

theorem owed_notification :
    ((notificationDeviceRealtimeBranch previous env).getD raisedDebt).owed = 0 ↔
      Branch.notificationDeviceRealtime.clears userId previous env = true := by
  rw [notification_eq, clears_notification]
  cases notificationPages previous env with
  | none => exact owes_raisedDebt.owed
  | some pages => exact owed_closeNotifications pages.1 pages.2

/-- The names under which deliveries are counted, by their status. -/
def countName : String → String
  | "accepted" => "external_accepted"
  | _ => "external_unknown"

def COUNTED_STATUSES : List String := ["accepted", "provider_acceptance_unknown"]

theorem count_notification {status : String} (hstatus : status ∈ COUNTED_STATUSES) :
    ((notificationDeviceRealtimeBranch previous env).getD raisedDebt).count (countName status) =
      (intentsOf previous env).countP fun item => item.status = status := by
  rw [notification_eq]
  unfold intentsOf
  cases notificationPages previous env with
  | none => rcases List.mem_pair.mp hstatus with rfl | rfl <;> rfl
  | some pages =>
      rw [Option.map_some, Option.getD_some, Option.map_some, Option.getD_some]
      unfold closeNotifications
      rw [count_policy]
      intro debt
      rcases List.mem_pair.mp hstatus with rfl | rfl
      · rw [getD_insert, if_neg (by decide), getD_insert]
        rfl
      · rw [getD_insert]
        rfl

theorem delivered_notification :
    ((notificationDeviceRealtimeBranch previous env).getD raisedDebt).count "external_delivered" = 0 := by
  rw [notification_eq]
  cases notificationPages previous env with
  | none => rfl
  | some pages =>
      refine (count_closeNotifications (by decide) pages.1 pages.2).mpr fun hmem => ?_
      exact pageDebts_blocks _ hmem (by decide)

theorem intents_of_done (h : ((notificationDeviceRealtimeBranch previous env).getD raisedDebt).done = true) :
    intentsOf previous env = [] := by
  rw [notification_eq] at h
  unfold intentsOf
  cases hpages : notificationPages previous env with
  | none => rfl
  | some pages =>
      rw [hpages, Option.map_some, Option.getD_some] at h
      have hrows := done_closeDebtFirst h
      rw [Bool.or_eq_false_iff, Bool.not_eq_false'] at hrows
      rw [Option.map_some, Option.getD_some, List.isEmpty_iff.mp hrows.1]
      rfl

/-- Where all rows went through, all intents were scrubbed. -/
theorem scrubbed_of_clears (h : Branch.notificationDeviceRealtime.clears userId previous env = true) :
    scrubbedIntents previous env = intentsOf previous env := by
  rw [clears_notification] at h
  unfold scrubbedIntents intentsOf
  cases hpages : notificationPages previous env with
  | none => rfl
  | some pages =>
      rw [hpages, Option.any_some, Bool.and_eq_true, List.all_eq_true] at h
      refine List.filter_eq_self.mpr fun item hitem => ?_
      exact h.1 item (List.mem_filter.mp hitem).1

end

end Stoa.AccountDeletion
