import Stoa.Model.DeletionBranches

/-! # A complete branch has two clean passes behind it -/

namespace Stoa.AccountDeletion

/-! ## Visits -/

/-- Where the two scans of a run stand; a branch with one scan has no other. -/
structure Ends where
  rows : Option Place
  connections : Option Place

def Ends.top : Ends := ⟨none, none⟩

/-- How far a run took the scans, and whether it found no row to process and no debt. -/
structure Visit where
  start : Ends
  stop : Ends
  clean : Bool

namespace Branch

/-- The rows that a branch processes. -/
def selects (userId : String) : Branch → PrivateRow → Bool
  | .accountProfile => isProfileRow
  | .identityCrossAccount => isIdentityRow
  | .capabilityScope => isCapabilityRow
  | .questionOcrSession => isQuestionRow userId
  | .reportRecords => ReportFamily.selects .records
  | .supportRecoveryFeed => ReportFamily.selects .support
  | .reportArtifacts => isReportObject
  | _ => fun _ => true

/-- The branches that keep what they could not resolve as debt. -/
def keepsUnresolved : Branch → Bool
  | .moderation | .reportRecords | .supportRecoveryFeed => true
  | _ => false

def cleanPage (userId : String) (branch : Branch) (page : Page) : Bool :=
  (page.items.filter (branch.selects userId)).isEmpty && (!branch.keepsUnresolved || page.unresolved = 0)

/-- Where a run starts, from the cursor that is stored. -/
def ends (branch : Branch) (cursor : Option Cursor) : Option Ends :=
  match branch with
  | .attachments => some .top
  | .moderation => (resumeModeration cursor).map fun place => ⟨place, none⟩
  | .notificationDeviceRealtime => do
    return ⟨← familyPlace "notification" (cursor.getD .empty),
      ← familyPlace "connection" (cursor.getD .empty)⟩
  | _ => (resume cursor).map fun place => ⟨place, none⟩

/-- What a run comes upon. -/
def visit (userId : String) (branch : Branch) (previous : Option BranchResult) (env : Environment) :
    Option Visit :=
  match branch with
  | .attachments => env.purge.map fun result => ⟨.top, .top, result.quiescent && !result.found⟩
  | .notificationDeviceRealtime => do
    let start ← branch.ends (priorCursor previous)
    let notifications ← env.scan start.rows
    let connections ← env.connections start.connections
    return ⟨start, ⟨notifications.cursor, connections.cursor⟩,
      notifications.items.isEmpty && connections.items.isEmpty⟩
  | _ => do
    let start ← branch.ends (priorCursor previous)
    let page ← env.scan start.rows
    return ⟨start, ⟨page.cursor, none⟩, branch.cleanPage userId page⟩

end Branch

/-- The visits go on from one another. -/
def Leads : Ends → List Visit → Ends → Prop
  | a, [], b => a = b
  | a, v :: visits, b => v.start = a ∧ Leads v.stop visits b

theorem Leads.append {a b : Ends} {visits : List Visit} {v : Visit} (h : Leads a visits b)
    (hv : v.start = b) : Leads a (visits ++ [v]) v.stop := by
  induction visits generalizing a with
  | nil => exact ⟨hv.trans h.symm, rfl⟩
  | cons w visits ih => exact ⟨h.1, ih h.2⟩

/-- From the top of the table to its end. -/
def FullPass (visits : List Visit) : Prop := visits ≠ [] ∧ Leads .top visits .top

structure CleanPass (visits : List Visit) : Prop where
  full : FullPass visits
  clean : ∀ v ∈ visits, v.clean = true

/-! ## What a run does to the stored result -/

/-- What is stored after a run, by what the run came upon. -/
inductive Progress (branch : Branch) (previous : Option BranchResult) :
    Option Visit → BranchResult → Prop where
  /-- The count of passes starts again. -/
  | broken {v result} (epoch : result.epoch = 0) (open_ : result.done = false)
      (next : priorDirty (some result) = true ∨ branch.ends result.cursor = some .top) :
      Progress branch previous v result
  /-- The pass goes on. -/
  | paused {v result} (epoch : result.epoch = priorEpoch previous) (open_ : result.done = false)
      (start : branch.ends (priorCursor previous) = some v.start)
      (stop : branch.ends result.cursor = some v.stop)
      (dirty : priorDirty (some result) = (priorDirty previous || !v.clean)) :
      Progress branch previous (some v) result
  /-- A clean pass ends. -/
  | passed {v result} (epoch : result.epoch = priorEpoch previous + 1)
      (done : result.done = true → 2 ≤ result.epoch)
      (start : branch.ends (priorCursor previous) = some v.start) (stop : v.stop = .top)
      (clean : v.clean = true) (prior : priorDirty previous = false)
      (dirty : priorDirty (some result) = false) (next : branch.ends result.cursor = some .top) :
      Progress branch previous (some v) result

section

variable {branch : Branch} {previous : Option BranchResult} {userId : String} {env : Environment}

/-! ### Cursors come back as they were stored -/

theorem placeOf_self (place : Place) : placeOf place.pk place.sk = some place :=
  dif_pos ⟨place.pk_ne, place.sk_ne⟩

theorem validatedCursor_cursor (place : Place) : validatedCursor place.cursor = some place :=
  placeOf_self place

theorem moderationPlace_familyCursor (place : Place) : moderationPlace (familyCursor place) = some place := by
  have hfour : moderationPlace (familyCursor place) =
      if (familyCursor place).keys.length = 4 ∧ place.pk = place.pk ∧ place.sk = place.sk then
        placeOf place.pk place.sk else none := rfl
  rw [hfour, if_pos ⟨rfl, rfl, rfl⟩, placeOf_self]

theorem familyPlace_nextCursor {notification connection : Option Place} {cursor : Cursor}
    (h : nextCursor notification connection = some cursor) :
    familyPlace "notification" cursor = some notification ∧
      familyPlace "connection" cursor = some connection := by
  cases notification with
  | none =>
      cases connection with
      | none => cases h
      | some c =>
          cases h
          exact ⟨rfl, congrArg (Option.map some) (placeOf_self c)⟩
  | some n =>
      cases connection with
      | none =>
          cases h
          exact ⟨congrArg (Option.map some) (placeOf_self n), rfl⟩
      | some c =>
          cases h
          exact ⟨congrArg (Option.map some) (placeOf_self n), congrArg (Option.map some) (placeOf_self c)⟩

/-! ### Loops -/

theorem ends_none : branch.ends none = some .top := by
  cases branch <;> rfl

theorem done_cleanPass {debt : OrderedDict String ℕ} (h : (cleanPass previous debt).done = true) :
    2 ≤ (cleanPass previous debt).epoch := by
  obtain ⟨-, hquiescent⟩ := of_decide_eq_true h
  exact of_decide_eq_true hquiescent

theorem cleanPass_progress {v : Visit} {debt : OrderedDict String ℕ}
    (hdebt : debt.get? "pass_dirty" = none) (hstart : branch.ends (priorCursor previous) = some v.start)
    (hstop : v.stop = .top) (hclean : v.clean = true) (hprior : priorDirty previous = false) :
    Progress branch previous (some v) (cleanPass previous debt) := by
  refine .passed rfl done_cleanPass hstart hstop hclean hprior ?_ ends_none
  unfold priorDirty cleanPass
  simp [hdebt]

theorem runBaseBranch_progress {predicate : PrivateRow → Bool} {result : BranchResult}
    (hends : ∀ cursor, branch.ends cursor = (resume cursor).map fun place => ⟨place, none⟩)
    (h : runBaseBranch predicate previous env = some result) :
    ∃ start page, resume (priorCursor previous) = some start ∧ env.scan start = some page ∧
      Progress branch previous
        (some ⟨⟨start, none⟩, ⟨page.cursor, none⟩, (page.items.filter predicate).isEmpty⟩) result := by
  obtain ⟨start, hstart, h⟩ := Option.bind_eq_some_iff.mp h
  obtain ⟨page, hpage, h⟩ := Option.bind_eq_some_iff.mp h
  refine ⟨start, page, hstart, hpage, ?_⟩
  have hfrom : branch.ends (priorCursor previous) = some ⟨start, none⟩ := by
    rw [hends, hstart]
    rfl
  dsimp only at h
  split at h
  · cases h
    exact .broken rfl rfl (.inl rfl)
  · cases h
  · split at h
    · rename_i place hplace
      cases h
      refine .paused rfl rfl hfrom ?_ ?_
      · rw [hends, hplace]
        exact congrArg (Option.map _) (congrArg (Option.map some) (validatedCursor_cursor place))
      · cases hdirty : priorDirty previous || !(page.items.filter predicate).isEmpty <;> rfl
    · rename_i hend
      split at h
      · cases h
        exact .broken rfl rfl (.inr ends_none)
      · rename_i hdirty
        cases h
        rw [Bool.or_eq_true, not_or, Bool.not_eq_true, Bool.not_eq_true, Bool.not_eq_false'] at hdirty
        exact cleanPass_progress rfl hfrom (by rw [hend]; rfl) hdirty.2 hdirty.1

theorem priorDirty_of_get? {result : BranchResult} {debt : OrderedDict String ℕ} {dirty : Bool}
    (hdebt : result.debtCounts = some debt) (h : debt.get? "pass_dirty" = some dirty.toNat) :
    priorDirty (some result) = dirty := by
  unfold priorDirty
  rw [Option.bind_some, hdebt, Option.bind_some, h]
  cases dirty <;> rfl

/-- The page of a loop that keeps debt for each row. -/
theorem closePage_progress {v : Visit} {cursor : Option Cursor} {anyRow : Bool} {found : Tally}
    (hstart : branch.ends (priorCursor previous) = some v.start)
    (hstop : branch.ends cursor = some v.stop)
    (hclean : v.clean = (!anyRow && found.debt.entries.isEmpty)) :
    Progress branch previous (some v) (closePage previous cursor anyRow found) := by
  have hnot : (!v.clean) = (anyRow || !found.debt.entries.isEmpty) := by
    rw [hclean, Bool.not_and, Bool.not_not]
  have hcount : ∀ dirty : Bool, ((found.debt.insert "pass_dirty" dirty.toNat).insert "processed"
      found.processed).get? "pass_dirty" = some dirty.toNat := fun dirty => by
    simp [OrderedDict.get?_insert]
  unfold closePage
  cases cursor with
  | some cursor =>
      refine .paused rfl rfl hstart hstop ?_
      rw [priorDirty_of_get? rfl (hcount _), hnot, Bool.or_assoc]
  | none =>
      dsimp only
      split
      · split
        · exact .broken rfl rfl (.inr ends_none)
        · exact .broken rfl rfl (.inr ends_none)
      · rename_i hdirty
        rw [Bool.or_assoc, ← hnot, Bool.or_eq_true, not_or, Bool.not_eq_true, Bool.not_eq_true,
          Bool.not_eq_false'] at hdirty
        exact cleanPass_progress rfl hstart (Option.some_inj.mp (hstop.symm.trans ends_none)) hdirty.2
          hdirty.1

/-- The same for the loops that ask for debt first. -/
theorem closeDebtFirst_progress {v : Visit} {cursor : Option Cursor} {anyRow : Bool} {found : Tally}
    {counts : List String} {policy : OrderedDict String ℕ → OrderedDict String ℕ}
    {settled : OrderedDict String ℕ} (hstart : branch.ends (priorCursor previous) = some v.start)
    (hstop : branch.ends cursor = some v.stop)
    (hclean : v.clean = (!anyRow && found.debt.entries.isEmpty))
    (hpolicy : ∀ debt, (policy debt).get? "pass_dirty" = debt.get? "pass_dirty")
    (hsettled : settled.get? "pass_dirty" = none) :
    Progress branch previous (some v) (closeDebtFirst counts previous cursor anyRow found policy settled) := by
  have hnot : (!v.clean) = (anyRow || !found.debt.entries.isEmpty) := by
    rw [hclean, Bool.not_and, Bool.not_not]
  have hcount : ∀ dirty : Bool, (policy ((found.debt.insert "pass_dirty" dirty.toNat).insert "processed"
      found.processed)).get? "pass_dirty" = some dirty.toNat := fun dirty => by
    simp [hpolicy, OrderedDict.get?_insert]
  unfold closeDebtFirst
  cases cursor with
  | some cursor =>
      refine .paused rfl rfl hstart hstop ?_
      rw [priorDirty_of_get? rfl (hcount _), hnot, Bool.or_assoc]
  | none =>
      dsimp only
      split
      · exact .broken rfl rfl (.inr ends_none)
      · split
        · exact .broken rfl rfl (.inr ends_none)
        · rename_i hdirty
          rw [Bool.or_assoc, ← hnot, Bool.or_eq_true, not_or, Bool.not_eq_true, Bool.not_eq_true,
            Bool.not_eq_false'] at hdirty
          exact cleanPass_progress hsettled hstart (Option.some_inj.mp (hstop.symm.trans ends_none))
            hdirty.2 hdirty.1

/-! ### Tallies -/

/-- A page is clean if no row is selected and nothing is left unresolved. -/
theorem clean_withUnresolved (debtOf : PrivateRow → Option String) (items : List PrivateRow)
    (unresolved : ℕ) :
    (items.isEmpty && decide (unresolved = 0)) =
      (!!items.isEmpty && ((tally debtOf items).withUnresolved unresolved).debt.entries.isEmpty) := by
  cases items with
  | nil =>
      unfold Tally.withUnresolved
      by_cases h : unresolved = 0
      · simp [h, tally, OrderedDict.empty]
      · simp [h, OrderedDict.isEmpty_insert]
  | cons item items => rfl

theorem clean_items (f : List PrivateRow → Tally) (hnil : f [] = {}) (items : List PrivateRow) :
    items.isEmpty = (!!items.isEmpty && (f items).debt.entries.isEmpty) := by
  cases items with
  | nil =>
      rw [hnil]
      rfl
  | cons item items => rfl

/-! ### Branches -/

/-- What the count of passes asks of the purge: it ends quiescent only if it came upon
nothing, and after a clean pass it ends so. -/
def PurgesClean (branch : Branch) (previous : Option BranchResult) (env : Environment) : Prop :=
  branch = .attachments → ∀ result, env.purge = some result →
    (result.quiescent = true → result.found = false) ∧ (0 < priorEpoch previous → result.quiescent = true)

theorem attachments_progress {result : BranchResult} (hmeets : PurgesClean .attachments previous env)
    (hprior : priorDirty previous = false) (h : attachmentsBranch previous env = some result) :
    ∃ v, Branch.visit userId .attachments previous env = some v ∧
      Progress .attachments previous (some v) result := by
  obtain ⟨purge, hpurge, h⟩ := Option.bind_eq_some_iff.mp h
  obtain ⟨hfound, hquiet⟩ := hmeets rfl purge hpurge
  cases h
  refine ⟨_, congrArg (Option.map _) hpurge, ?_⟩
  cases hquiescent : purge.quiescent with
  | false =>
      have hepoch : priorEpoch previous = 0 := by
        by_contra hne
        cases hquiescent.symm.trans (hquiet (Nat.pos_of_ne_zero hne))
      refine .broken (by simp [hepoch]) ?_ (.inr rfl)
      simp [BranchResult.done]
  | true =>
      refine .passed rfl (fun hdone => ?_) rfl rfl (by simp [hfound hquiescent, hquiescent]) hprior ?_ rfl
      · obtain ⟨hstatus, -⟩ := of_decide_eq_true hdone
        by_contra hlt
        rw [ite_eq_iff] at hstatus
        rcases hstatus with ⟨-, heq⟩ | ⟨hnot, heq⟩
        · cases heq
        · exact hnot ⟨heq, Nat.lt_of_not_le hlt⟩
      · unfold priorDirty AttachmentPurge.debtCounts
        rw [Option.bind_some, Option.bind_some, OrderedDict.get?_ofPairs_map]
        rfl

/-- A page of a loop with one scan. -/
theorem page_progress {close : Page → BranchResult} {result : BranchResult}
    (hvisit : branch.visit userId previous env = do
      let start ← branch.ends (priorCursor previous)
      let page ← env.scan start.rows
      return ⟨start, ⟨page.cursor, none⟩, branch.cleanPage userId page⟩)
    {resumed : Option Cursor → Option (Option Place)}
    (hends : ∀ cursor, branch.ends cursor = (resumed cursor).map fun place => ⟨place, none⟩)
    (hclose : ∀ (v : Visit) page, branch.ends (priorCursor previous) = some v.start →
      v.stop = ⟨page.cursor, none⟩ → v.clean = branch.cleanPage userId page →
        Progress branch previous (some v) (close page))
    (h : (do
      let page ← env.scan (← resumed (priorCursor previous))
      return close page) = some result) :
    ∃ v, branch.visit userId previous env = some v ∧ Progress branch previous (some v) result := by
  obtain ⟨start, hstart, h⟩ := Option.bind_eq_some_iff.mp h
  obtain ⟨page, hpage, h⟩ := Option.bind_eq_some_iff.mp h
  cases h
  have hfrom : branch.ends (priorCursor previous) = some ⟨start, none⟩ := by
    rw [hends, hstart]
    rfl
  refine ⟨⟨⟨start, none⟩, ⟨page.cursor, none⟩, branch.cleanPage userId page⟩, ?_, hclose _ page hfrom rfl rfl⟩
  rw [hvisit, hfrom]
  exact Option.bind_eq_some_iff.mpr ⟨_, rfl, Option.bind_eq_some_iff.mpr ⟨page, hpage, rfl⟩⟩

theorem base_progress {predicate : PrivateRow → Bool} {result : BranchResult}
    (hvisit : branch.visit userId previous env = do
      let start ← branch.ends (priorCursor previous)
      let page ← env.scan start.rows
      return ⟨start, ⟨page.cursor, none⟩, branch.cleanPage userId page⟩)
    (hends : ∀ cursor, branch.ends cursor = (resume cursor).map fun place => ⟨place, none⟩)
    (hclean : ∀ page, branch.cleanPage userId page = (page.items.filter predicate).isEmpty)
    (h : runBaseBranch predicate previous env = some result) :
    ∃ v, branch.visit userId previous env = some v ∧ Progress branch previous (some v) result := by
  obtain ⟨start, page, hstart, hpage, hprogress⟩ := runBaseBranch_progress hends h
  rw [← hclean page] at hprogress
  refine ⟨_, ?_, hprogress⟩
  rw [hvisit, hends, hstart]
  exact Option.bind_eq_some_iff.mpr ⟨_, rfl, Option.bind_eq_some_iff.mpr ⟨page, hpage, rfl⟩⟩

theorem notification_progress {result : BranchResult}
    (h : notificationDeviceRealtimeBranch previous env = some result) :
    ∃ v, Branch.visit userId .notificationDeviceRealtime previous env = some v ∧
      Progress .notificationDeviceRealtime previous (some v) result := by
  obtain ⟨rows, hrows, h⟩ := Option.bind_eq_some_iff.mp h
  obtain ⟨notifications, hnotifications, h⟩ := Option.bind_eq_some_iff.mp h
  obtain ⟨links, hlinks, h⟩ := Option.bind_eq_some_iff.mp h
  obtain ⟨connections, hconnections, h⟩ := Option.bind_eq_some_iff.mp h
  cases h
  have hfrom : Branch.notificationDeviceRealtime.ends (priorCursor previous) = some ⟨rows, links⟩ :=
    Option.bind_eq_some_iff.mpr ⟨rows, hrows, Option.bind_eq_some_iff.mpr ⟨links, hlinks, rfl⟩⟩
  refine ⟨⟨⟨rows, links⟩, ⟨notifications.cursor, connections.cursor⟩,
    notifications.items.isEmpty && connections.items.isEmpty⟩, ?_, ?_⟩
  · unfold Branch.visit
    rw [hfrom]
    exact Option.bind_eq_some_iff.mpr ⟨_, rfl, Option.bind_eq_some_iff.mpr ⟨notifications, hnotifications,
      Option.bind_eq_some_iff.mpr ⟨connections, hconnections, rfl⟩⟩⟩
  · refine closeDebtFirst_progress hfrom ?_ ?_ (fun debt => ?_) ?_
    · cases hcursor : nextCursor notifications.cursor connections.cursor with
      | some cursor =>
          obtain ⟨hn, hc⟩ := familyPlace_nextCursor hcursor
          exact Option.bind_eq_some_iff.mpr ⟨_, hn, Option.bind_eq_some_iff.mpr ⟨_, hc, rfl⟩⟩
      | none =>
          cases hn : notifications.cursor with
          | some place =>
              rw [hn] at hcursor
              cases hcursor
          | none =>
              cases hc : connections.cursor with
              | some place =>
                  rw [hn, hc] at hcursor
                  cases hcursor
              | none => rfl
    · cases hn : notifications.items with
      | cons item items => rfl
      | nil =>
          cases hc : connections.items with
          | cons item items => rfl
          | nil => rfl
    · simp [OrderedDict.get?_insert]
    · simp [OrderedDict.get?_insert]

theorem ends_cursor (hends : ∀ cursor, branch.ends cursor = (resume cursor).map fun place => ⟨place, none⟩)
    (place : Option Place) : branch.ends (place.map Place.cursor) = some ⟨place, none⟩ := by
  rw [hends]
  cases place with
  | none => rfl
  | some place => exact congrArg (Option.map _) (congrArg (Option.map some) (validatedCursor_cursor place))

theorem ends_familyCursor (place : Option Place) :
    Branch.moderation.ends (place.map familyCursor) = some ⟨place, none⟩ := by
  cases place with
  | none => rfl
  | some place =>
      exact congrArg (Option.map _) (congrArg (Option.map some) (moderationPlace_familyCursor place))

theorem cleanPage_all (hselects : branch.selects userId = fun _ => true) (page : Page)
    (hkeeps : branch.keepsUnresolved = false) : branch.cleanPage userId page = page.items.isEmpty := by
  unfold Branch.cleanPage
  rw [hselects, hkeeps, List.filter_true]
  simp

theorem cleanPage_unresolved (hbranch : branch = .moderation) (page : Page) :
    branch.cleanPage userId page = (page.items.isEmpty && decide (page.unresolved = 0)) := by
  subst hbranch
  unfold Branch.cleanPage
  have hall : page.items.filter (Branch.selects userId .moderation) = page.items := List.filter_true _
  rw [hall]
  rfl

theorem learning_progress {debtOf : PrivateRow → Option String} {result : BranchResult}
    (hvisit : branch.visit userId previous env = do
      let start ← branch.ends (priorCursor previous)
      let page ← env.scan start.rows
      return ⟨start, ⟨page.cursor, none⟩, branch.cleanPage userId page⟩)
    (hends : ∀ cursor, branch.ends cursor = (resume cursor).map fun place => ⟨place, none⟩)
    (hselects : branch.selects userId = fun _ => true) (hkeeps : branch.keepsUnresolved = false)
    (h : (do
      let page ← env.scan (← resume (priorCursor previous))
      return closeDebtFirst passCounts previous (page.cursor.map Place.cursor) (!page.items.isEmpty)
        (tally debtOf page.items) id .empty) = some result) :
    ∃ v, branch.visit userId previous env = some v ∧ Progress branch previous (some v) result :=
  page_progress hvisit hends (fun _ page hstart hstop hclean =>
    closeDebtFirst_progress hstart (hstop ▸ ends_cursor hends page.cursor)
      ((hclean.trans (cleanPage_all hselects page hkeeps)).trans (clean_items (tally _) rfl _))
      (fun _ => rfl) rfl) h

/-- What every handler does to the stored result, when it returns. -/
theorem handler_progress {result : BranchResult} (hmeets : PurgesClean branch previous env)
    (hprior : branch = .attachments → priorDirty previous = false)
    (h : branch.handler userId previous env = some result) :
    ∃ v, branch.visit userId previous env = some v ∧ Progress branch previous (some v) result := by
  cases branch with
  | accountProfile => exact base_progress rfl (fun _ => rfl) (fun _ => Bool.and_true _) h
  | identityCrossAccount =>
      obtain ⟨-, h⟩ := Option.ite_none_right_eq_some.mp h
      exact base_progress rfl (fun _ => rfl) (fun _ => Bool.and_true _) h
  | capabilityScope => exact base_progress rfl (fun _ => rfl) (fun _ => Bool.and_true _) h
  | questionOcrSession => exact base_progress rfl (fun _ => rfl) (fun _ => Bool.and_true _) h
  | attachments => exact attachments_progress hmeets (hprior rfl) h
  | moderation => exact page_progress rfl (fun _ => rfl) (fun _ page hstart hstop hclean =>
      closePage_progress hstart (hstop ▸ ends_familyCursor page.cursor)
        ((hclean.trans (cleanPage_unresolved rfl page)).trans (clean_withUnresolved _ _ _))) h
  | reportRecords => exact page_progress rfl (fun _ => rfl) (fun _ page hstart hstop hclean =>
      closePage_progress hstart (hstop ▸ ends_cursor (fun _ => rfl) page.cursor)
        (hclean.trans (clean_withUnresolved _ _ _))) h
  | supportRecoveryFeed => exact page_progress rfl (fun _ => rfl) (fun _ page hstart hstop hclean =>
      closePage_progress hstart (hstop ▸ ends_cursor (fun _ => rfl) page.cursor)
        (hclean.trans (clean_withUnresolved _ _ _))) h
  | reportArtifacts => exact page_progress rfl (fun _ => rfl) (fun _ page hstart hstop hclean =>
      closePage_progress hstart (hstop ▸ ends_cursor (fun _ => rfl) page.cursor)
        ((hclean.trans (Bool.and_true _)).trans (clean_items (tallyObjects env.scrub) rfl _))) h
  | conversationMessages => exact page_progress rfl (fun _ => rfl) (fun _ page hstart hstop hclean =>
      closePage_progress hstart (hstop ▸ ends_cursor (fun _ => rfl) page.cursor)
        ((hclean.trans (cleanPage_all rfl page rfl)).trans (clean_items (tally _) rfl _))) h
  | practiceProgress => exact learning_progress rfl (fun _ => rfl) rfl rfl h
  | adaptiveAssignment => exact learning_progress rfl (fun _ => rfl) rfl rfl h
  | learningMemory => exact learning_progress rfl (fun _ => rfl) rfl rfl h
  | aiTeacherDraft => exact learning_progress rfl (fun _ => rfl) rfl rfl h
  | curriculumSignal => exact learning_progress rfl (fun _ => rfl) rfl rfl h
  | notificationDeviceRealtime => exact notification_progress h

end

/-! ## Runs -/

/-- What is stored after a number of runs, and what each of them came upon; a run that
raised has come upon nothing. -/
structure Trace where
  stored : Option BranchResult
  visits : List (Option Visit)

section

variable (userId : String) (branch : Branch)

def Branch.traceStep (trace : Trace) (env : Environment) : Trace where
  stored := some (branch.continue_ userId trace.stored env)
  visits :=
    if trace.stored.any BranchResult.done then trace.visits
    else trace.visits ++ [(branch.handler userId trace.stored env).bind fun _ =>
      branch.visit userId trace.stored env]

def Branch.trace (envs : List Environment) : Trace :=
  envs.foldl (branch.traceStep userId) ⟨none, []⟩

variable {userId branch}

theorem trace_concat (envs : List Environment) (env : Environment) :
    branch.trace userId (envs ++ [env]) = branch.traceStep userId (branch.trace userId envs) env :=
  List.foldl_concat ..

theorem trace_stored (envs : List Environment) :
    (branch.trace userId envs).stored = branch.run userId envs := by
  induction envs using List.reverseRecOn with
  | nil => rfl
  | append_singleton envs env ih =>
      rw [trace_concat]
      unfold Branch.run at ih ⊢
      rw [List.foldl_concat, ← ih]
      rfl

end

/-- The last two passes were clean, one right after the other. -/
def TwoCleanPasses (visits : List (Option Visit)) : Prop :=
  ∃ older pass₁ pass₂, visits = older ++ (pass₁ ++ pass₂).map some ∧ CleanPass pass₁ ∧ CleanPass pass₂

/-- The last two runs were clean. -/
theorem TwoCleanPasses.suffix {visits : List (Option Visit)} (h : TwoCleanPasses visits) :
    [some true, some true] <:+ visits.map fun v => v.map Visit.clean := by
  obtain ⟨older, pass₁, pass₂, rfl, hclean₁, hclean₂⟩ := h
  have hlength : 2 ≤ (pass₁ ++ pass₂).length := by
    have hpos₁ := List.length_pos_iff.mpr hclean₁.full.1
    have hpos₂ := List.length_pos_iff.mpr hclean₂.full.1
    rw [List.length_append]
    omega
  have hall : ((pass₁ ++ pass₂).map some).map (fun v => v.map Visit.clean) =
      List.replicate (pass₁ ++ pass₂).length (some true) := by
    rw [List.map_map, List.map_eq_replicate_iff]
    intro v hv
    rcases List.mem_append.mp hv with hv | hv
    · exact congrArg some (hclean₁.clean v hv)
    · exact congrArg some (hclean₂.clean v hv)
  rw [List.map_append, hall]
  refine List.IsSuffix.trans ⟨List.replicate ((pass₁ ++ pass₂).length - 2) (some true), ?_⟩
    (List.suffix_append _ _)
  rw [show [some true, some true] = List.replicate 2 (some true) from rfl,
    List.replicate_append_replicate, Nat.sub_add_cancel hlength]

/-- As many clean passes as are counted, and a part of the next one. -/
def Underway (branch : Branch) (stored : Option BranchResult) (visits : List (Option Visit)) : Prop :=
  ∃ (older : List (Option Visit)) (passes : List (List Visit)) (current : List Visit) (at_ : Ends),
    visits = older ++ (passes.flatten ++ current).map some ∧
    passes.length = priorEpoch stored ∧ (∀ pass ∈ passes, CleanPass pass) ∧
    (∀ v ∈ current, v.clean = true) ∧ branch.ends (priorCursor stored) = some at_ ∧ Leads .top current at_

section

variable {userId : String} {branch : Branch} {stored : Option BranchResult} {result : BranchResult}
  {visits : List (Option Visit)} {v : Option Visit}

theorem twoCleanPasses_of_length {passes : List (List Visit)} (older : List (Option Visit))
    (hvisits : visits = older ++ passes.flatten.map some) (hclean : ∀ pass ∈ passes, CleanPass pass)
    (hlength : 2 ≤ passes.length) : TwoCleanPasses visits := by
  obtain ⟨pass₂, hpass₂⟩ : ∃ pass, passes.getLast? = some pass := by
    cases hlast : passes.getLast? with
    | some pass => exact ⟨pass, rfl⟩
    | none =>
        rw [List.getLast?_eq_none_iff.mp hlast] at hlength
        cases hlength
  obtain ⟨front, rfl⟩ := List.getLast?_eq_some_iff.mp hpass₂
  obtain ⟨pass₁, hpass₁⟩ : ∃ pass, front.getLast? = some pass := by
    cases hlast : front.getLast? with
    | some pass => exact ⟨pass, rfl⟩
    | none =>
        rw [List.getLast?_eq_none_iff.mp hlast] at hlength
        simp at hlength
  obtain ⟨first, rfl⟩ := List.getLast?_eq_some_iff.mp hpass₁
  refine ⟨older ++ first.flatten.map some, pass₁, pass₂, ?_, hclean pass₁ (by simp), hclean pass₂ (by simp)⟩
  simp [hvisits]

theorem Progress.underway (h : Progress branch stored v result)
    (hvisits : priorDirty stored = true ∨ Underway branch stored visits) :
    (priorDirty (some result) = true ∨ Underway branch (some result) (visits ++ [v])) ∧
      (result.done = true → TwoCleanPasses (visits ++ [v])) := by
  cases h with
  | broken epoch open_ next =>
      refine ⟨next.imp_right fun htop => ?_, fun hdone => ?_⟩
      · exact ⟨visits ++ [v], [], [], .top, by simp, epoch.symm, by simp, by simp, htop, rfl⟩
      · cases open_.symm.trans hdone
  | @paused v _ epoch open_ start stop dirty =>
      refine ⟨?_, fun hdone => ?_⟩
      · cases hprior : priorDirty stored || !v.clean with
        | true => exact .inl (dirty.trans hprior)
        | false =>
            obtain ⟨hclean, hvclean⟩ := Bool.or_eq_false_iff.mp hprior
            obtain ⟨older, passes, current, at_, rfl, hcount, hpasses, hcurrent, hat, hleads⟩ :=
              hvisits.resolve_left (Bool.eq_false_iff.mp hclean)
            refine .inr ⟨older, passes, current ++ [v], v.stop, by simp, hcount.trans epoch.symm, hpasses,
              fun w hw => ?_, stop, hleads.append (Option.some_inj.mp (start.symm.trans hat))⟩
            rcases List.mem_append.mp hw with hw | hw
            · exact hcurrent w hw
            · rw [List.mem_singleton.mp hw]
              rwa [Bool.not_eq_false'] at hvclean
      · cases open_.symm.trans hdone
  | @passed v _ epoch done start stop clean prior dirty next =>
      obtain ⟨older, passes, current, at_, rfl, hcount, hpasses, hcurrent, hat, hleads⟩ :=
        hvisits.resolve_left (Bool.eq_false_iff.mp prior)
      have hpass : CleanPass (current ++ [v]) := by
        refine ⟨⟨by simp, ?_⟩, fun w hw => ?_⟩
        · have hpass := hleads.append (Option.some_inj.mp (start.symm.trans hat))
          rwa [stop] at hpass
        · rcases List.mem_append.mp hw with hw | hw
          · exact hcurrent w hw
          · rw [List.mem_singleton.mp hw]
            exact clean
      have hall : ∀ pass ∈ passes ++ [current ++ [v]], CleanPass pass := by
        intro pass hmem
        rcases List.mem_append.mp hmem with hmem | hmem
        · exact hpasses pass hmem
        · rwa [List.mem_singleton.mp hmem]
      have hlength : (passes ++ [current ++ [v]]).length = result.epoch := by
        rw [epoch, ← hcount]
        simp
      refine ⟨.inr ⟨older, passes ++ [current ++ [v]], [], .top, by simp, hlength, hall, by simp, next, rfl⟩,
        fun hdone => ?_⟩
      exact twoCleanPasses_of_length older (by simp) hall (hlength ▸ done hdone)

/-- A purge stores no mark of a dirty pass. -/
theorem priorDirty_attachments {env : Environment} :
    priorDirty (some ((attachmentsBranch stored env).getD
      { status := .retryable, debtCounts := some (.ofPairs [("dependency", 1)]) })) = false := by
  cases hresult : attachmentsBranch stored env with
  | none => rfl
  | some result =>
      obtain ⟨purge, hpurge, hresult⟩ := Option.bind_eq_some_iff.mp hresult
      cases hresult
      unfold priorDirty AttachmentPurge.debtCounts
      rw [Option.getD_some, Option.bind_some, Option.bind_some, OrderedDict.get?_ofPairs_map]
      rfl

theorem continue_of_open {env : Environment} (h : stored.any BranchResult.done = false) :
    branch.continue_ userId stored env = (branch.handler userId stored env).getD
      { status := .retryable, debtCounts := some (.ofPairs [("dependency", 1)]) } := by
  cases stored with
  | none => rfl
  | some result => exact if_neg (Bool.eq_false_iff.mp h)

/-- A complete branch is not run again. -/
theorem continue_of_done {env : Environment} (h : stored.any BranchResult.done = true) :
    some (branch.continue_ userId stored env) = stored := by
  cases stored with
  | none => cases h
  | some result => exact congrArg some (if_pos h)

variable (userId) in
/-- What a step does that runs the handler. -/
theorem continue_progress {env : Environment} (hopen : stored.any BranchResult.done = false)
    (hmeets : PurgesClean branch stored env) (hprior : branch = .attachments → priorDirty stored = false) :
    Progress branch stored ((branch.handler userId stored env).bind fun _ =>
      branch.visit userId stored env) (branch.continue_ userId stored env) := by
  rw [continue_of_open hopen]
  cases hresult : branch.handler userId stored env with
  | none => exact .broken rfl rfl (.inr ends_none)
  | some result =>
      obtain ⟨v, hv, hprogress⟩ := handler_progress hmeets hprior hresult
      rw [Option.bind_some, hv, Option.getD_some]
      exact hprogress

theorem complete_after_two_clean_passes (userId : String) (branch : Branch) (envs : List Environment)
    (hmeets : ∀ before env after, envs = before ++ env :: after →
      PurgesClean branch (branch.run userId before) env) (result : BranchResult)
    (hresult : branch.run userId envs = some result) (hdone : result.done = true) :
    TwoCleanPasses (branch.trace userId envs).visits := by
  have hall : (priorDirty (branch.trace userId envs).stored = true ∨
        Underway branch (branch.trace userId envs).stored (branch.trace userId envs).visits) ∧
      ((branch.trace userId envs).stored.any BranchResult.done = true →
        TwoCleanPasses (branch.trace userId envs).visits) ∧
      (branch = .attachments → priorDirty (branch.trace userId envs).stored = false) := by
    clear hresult
    induction envs using List.reverseRecOn with
    | nil => exact ⟨.inr ⟨[], [], [], .top, rfl, rfl, by simp, by simp, ends_none, rfl⟩, by
        rintro ⟨⟩, fun _ => rfl⟩
    | append_singleton envs env ih =>
        obtain ⟨hunderway, htwo, hprior⟩ := ih fun before env' after heq =>
          hmeets before env' (after ++ [env]) (by simp [heq])
        have hstep := hmeets envs env [] rfl
        rw [← trace_stored] at hstep
        rw [trace_concat]
        generalize branch.trace userId envs = trace at *
        unfold Branch.traceStep
        cases hopen : trace.stored.any BranchResult.done with
        | true =>
            rw [continue_of_done hopen]
            exact ⟨hunderway, fun _ => htwo hopen, hprior⟩
        | false =>
            obtain ⟨hnext, hclean⟩ :=
              (continue_progress userId hopen hstep hprior).underway hunderway
            refine ⟨hnext, hclean, ?_⟩
            rintro rfl
            rw [continue_of_open hopen]
            exact priorDirty_attachments
  refine hall.2.1 ?_
  rw [trace_stored, hresult]
  exact hdone

end

/-! ## A purge that found rows between two clean ones -/

namespace PurgeSample

/-- A purge that comes upon rows, and does not finish. -/
def found : Environment := { purge := some { status := .retryable, quiescent := false, found := true } }

def clean : Environment := { purge := some { status := .complete, quiescent := true, found := false } }

theorem clean_purges {previous : Option BranchResult} : PurgesClean .attachments previous clean := by
  rintro - result hresult
  cases hresult
  exact ⟨fun _ => rfl, fun _ => rfl⟩

end PurgeSample

theorem complete_after_two_clean_passes_sample :
    ((Branch.attachments.run "student" [PurgeSample.clean, PurgeSample.clean]).map BranchResult.done =
        some true) ∧
      TwoCleanPasses (Branch.attachments.trace "student" [PurgeSample.clean, PurgeSample.clean]).visits :=
  ⟨by decide, complete_after_two_clean_passes "student" .attachments
    [PurgeSample.clean, PurgeSample.clean] (fun before env after heq => by
      have hmem : env ∈ [PurgeSample.clean, PurgeSample.clean] := by
        rw [heq]
        simp
      rcases List.mem_cons.mp hmem with rfl | hmem
      · exact PurgeSample.clean_purges
      · rw [List.mem_singleton.mp hmem]
        exact PurgeSample.clean_purges) _ rfl (by decide +kernel)⟩

/-- The branch is complete after a clean pass, one that found rows, and a clean one. -/
theorem attachments_complete_after_found :
    (Branch.attachments.run "student" [PurgeSample.clean, PurgeSample.found, PurgeSample.clean]).map
      BranchResult.done = some true ∧
    (Branch.attachments.run "student" [PurgeSample.clean, PurgeSample.found]).map
      BranchResult.done = some false ∧
    ¬ TwoCleanPasses (Branch.attachments.trace "student"
      [PurgeSample.clean, PurgeSample.found, PurgeSample.clean]).visits := by
  refine ⟨by decide, by decide, ?_⟩
  intro htwo
  have hclean := htwo.suffix
  have hmap : (Branch.attachments.trace "student" [PurgeSample.clean, PurgeSample.found,
      PurgeSample.clean]).visits.map (fun v => v.map Visit.clean) = [some true, some false, some true] := by
    decide
  rw [hmap] at hclean
  revert hclean
  decide

end Stoa.AccountDeletion
