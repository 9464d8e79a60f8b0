import Stoa.Model.DeletionSweep

/-! # Every pending deletion is offered

A place is stored only by a run that has read the place before it. Between the two
the run has offered every command of the slice that it passes over; so what lies
between two ends of the table has been offered in between. -/

namespace Stoa.DeletionSweep

open RowStore

variable {K : Type}

/-! ## Stored places -/

def cursorOf (row : Option (CursorRow K)) : Option K := row.bind fun item => item.cursor.join

def heldOf (row : Option (CursorRow K)) : ℤ := max ((row.bind CursorRow.heldRuns).getD 0) 0

def versionOf (row : Option (CursorRow K)) : ℤ := (row.bind CursorRow.version).getD 0

theorem readPlace_eq_ok {isTimestamp : String → Bool} {row : Option (CursorRow K)}
    {place : DeletionScanCursor K} (h : readPlace isTimestamp row = .ok place) :
    place.cursor = cursorOf row ∧ place.heldRuns = heldOf row ∧
      place.version = row.bind CursorRow.version ∧ (row.isSome = true → place.version.isSome = true) := by
  cases row with
  | none =>
      cases h
      exact ⟨rfl, rfl, rfl, fun h => h⟩
  | some item =>
      cases hversion : item.version with
      | none =>
          simp only [readPlace, hversion, reduceCtorEq] at h
      | some version =>
          simp only [readPlace, hversion] at h
          split at h <;> cases h
          exact ⟨rfl, rfl, hversion.symm, fun _ => rfl⟩

/-! ## Pages -/

theorem mem_itemsOf {rows : List ((k : Key K) × Row K k)} {key : K} {row : TableRow} :
    (key, row) ∈ itemsOf rows ↔ (⟨.item key, row⟩ : (k : Key K) × Row K k) ∈ rows := by
  induction rows with
  | nil => simp [itemsOf]
  | cons entry rows ih =>
      obtain ⟨k, item⟩ := entry
      cases k with
      | cursor => simp [itemsOf, ih]
      | item other =>
          rw [itemsOf, List.mem_cons, List.mem_cons, ih]
          refine or_congr_left ?_
          constructor
          · rintro ⟨⟩
            rfl
          · rintro ⟨⟩
            rfl
      | offers other => simp [itemsOf, ih]

section

variable [LinearOrder K]

/-- Later than where a scan goes on from. -/
def Past (cursor : Option K) (key : K) : Prop := ∀ c ∈ cursor, c < key

/-- No later than where a scan has stopped; nothing is later than the end. -/
def Within (cursor : Option K) (key : K) : Prop := ∀ c ∈ cursor, key ≤ c

/-- A pending command that a page reaches is on the page. -/
theorem mem_readPage {limit : ℕ} {rows : List (K × TableRow)} {key : K} {row : TableRow}
    (hlimit : 0 < limit) (hmem : (key, row) ∈ rows) (hpending : row.isPending = true)
    (honly : ∀ row', (key, row') ∈ rows → row' = row) (hwithin : Within (readPage limit rows).cursor key) :
    key ∈ (readPage limit rows).items := by
  have hitem : ∀ row', (key, row') ∈ (rows.insertionSort fun a b => a.1 ≤ b.1).take limit →
      key ∈ (readPage limit rows).items := by
    intro row' hrow'
    have hrows : (key, row') ∈ rows := (List.mem_insertionSort _).mp (List.mem_of_mem_take hrow')
    obtain rfl := honly row' hrows
    exact List.mem_map.mpr ⟨(key, row'), List.mem_filter.mpr ⟨hrow', hpending⟩, rfl⟩
  have hsorted : (key, row) ∈ rows.insertionSort fun a b => a.1 ≤ b.1 := (List.mem_insertionSort _).mpr hmem
  by_cases hlt : limit < (rows.insertionSort fun a b => a.1 ≤ b.1).length
  · have hne : (rows.insertionSort fun a b => a.1 ≤ b.1).take limit ≠ [] := by
      intro hnil
      have hlength := congrArg List.length hnil
      simp only [List.length_take, List.length_nil] at hlength
      omega
    have hcursor : (readPage limit rows).cursor =
        some (((rows.insertionSort fun a b => a.1 ≤ b.1).take limit).getLast hne).1 := by
      unfold readPage
      simp only [hlt, if_true, List.getLast?_eq_some_getLast hne, Option.map_some]
    rw [← List.take_append_drop limit (rows.insertionSort fun a b => a.1 ≤ b.1)] at hsorted
    rcases List.mem_append.mp hsorted with htake | hdrop
    · exact hitem row htake
    · have hpairwise : (rows.insertionSort fun a b => a.1 ≤ b.1).Pairwise fun a b => a.1 ≤ b.1 := by
        have htotal : Std.Total fun a b : K × TableRow => a.1 ≤ b.1 := ⟨fun a b => le_total a.1 b.1⟩
        have htrans : IsTrans (K × TableRow) fun a b => a.1 ≤ b.1 := ⟨fun a b c => le_trans⟩
        exact List.pairwise_insertionSort _ rows
      rw [← List.take_append_drop limit (rows.insertionSort fun a b => a.1 ≤ b.1)] at hpairwise
      have hle := (List.pairwise_append.mp hpairwise).2.2 _ (List.getLast_mem hne) _ hdrop
      have heq := le_antisymm hle (hwithin _ hcursor)
      have hlast := List.getLast_mem hne
      rw [show ((rows.insertionSort fun a b => a.1 ≤ b.1).take limit).getLast hne = (key,
        (((rows.insertionSort fun a b => a.1 ≤ b.1).take limit).getLast hne).2) from Prod.ext heq rfl] at hlast
      exact hitem _ hlast
  · rw [← List.take_of_length_le (not_lt.mp hlt)] at hsorted
    exact hitem row hsorted

theorem length_readPage (limit : ℕ) (rows : List (K × TableRow)) :
    (readPage limit rows).items.length ≤ limit := by
  unfold readPage
  rw [List.length_map]
  exact (List.length_filter_le _ _).trans (List.length_take_le _ _)

/-! ## What a history shows -/

abbrev Entry (K : Type) [LinearOrder K] := Commit (Key K) (Row K) (SweepRun K)

/-- A place is stored. -/
def WritesPlace (e : Entry K) : Prop := e.after.row .cursor ≠ e.before.row .cursor

/-- The command is passed to `claim_deletion_command`. -/
def Offers (e : Entry K) (key : K) : Prop := e.after.row (.offers key) ≠ e.before.row (.offers key)

/-- The row is one that the sweep is for. -/
def Pending (t : Table (Key K) (Row K)) (key : K) : Prop :=
  ∃ row : TableRow, t.row (.item key) = some row ∧ row.isPending = true

/-- A command failed in the run that made this write. -/
def Fails (e : Entry K) (older : List (Entry K)) : Prop :=
  ∃ e' ∈ older, e'.id = e.id ∧ ∃ key, Offers e' key ∧ (e.call.outcome key).failed = true

/-- So many places, the latest ones, were each stored by a run in which a command
failed, and are the place that this run had read. The row that the table starts
with says how often that was so before. -/
inductive HeldFor (start : ℤ) : ℕ → List (Entry K) → Prop
  | none (history : List (Entry K)) : HeldFor start 0 history
  | start {n : ℕ} (h : (n : ℤ) ≤ start) : HeldFor start n []
  | held {n : ℕ} {e : Entry K} {older : List (Entry K)} (hwrites : WritesPlace e)
      (hstays : cursorOf (e.after.row .cursor) = cursorOf (e.before.row .cursor)) (hfails : Fails e older)
      (h : HeldFor start n older) : HeldFor start (n + 1) (e :: older)
  | other {n : ℕ} {e : Entry K} {older : List (Entry K)} (hother : ¬ WritesPlace e)
      (h : HeldFor start n older) : HeldFor start n (e :: older)

/-- The run stays where it is. -/
structure Holds (e : Entry K) (older : List (Entry K)) : Prop where
  stays : cursorOf (e.after.row .cursor) = cursorOf (e.before.row .cursor)
  fails : Fails e older
  counted : heldOf (e.after.row .cursor) = heldOf (e.before.row .cursor) + 1

/-- The run goes on. -/
structure Passes (start : ℤ) (e : Entry K) (older : List (Entry K)) : Prop where
  counted : heldOf (e.after.row .cursor) = 0
  dealtWith : ¬ Fails e older ∨ ∃ n : ℕ, HOLD_LIMIT ≤ n ∧ HeldFor start n older

/-- The end of the table is stored. -/
structure Ends (e : Entry K) : Prop where
  writes : WritesPlace e
  cursor : cursorOf (e.after.row .cursor) = none
  passed : heldOf (e.after.row .cursor) = 0

/-- The place that is stored after a history. -/
def placeAt (start : Option (CursorRow K)) : List (Entry K) → Option (CursorRow K)
  | [] => start
  | e :: _ => e.after.row .cursor

/-- Rows that are pending from some time on. -/
structure Watch (K : Type) [LinearOrder K] where
  since : K → List (Entry K) → Prop
  none : ∀ key, ¬ since key []
  later : ∀ key e older, since key older → since key (e :: older)
  first : ∀ key e older, since key (e :: older) → since key older ∨ Pending e.after key

/-- A write of the place, by a run that read the place when the history was `base`. -/
structure Written (start : Option (CursorRow K)) (watch : Watch K) (e : Entry K) (older : List (Entry K)) :
    Prop where
  stored : (e.after.row .cursor).isSome = true
  version : versionOf (e.after.row .cursor) = versionOf (e.before.row .cursor) + 1
  moves : Holds e older ∨ Passes (heldOf start) e older
  covers : ∃ newer base, older = newer ++ base ∧ (∀ e' ∈ newer, ¬ WritesPlace e') ∧
    (heldOf (e.after.row .cursor) = 0 → ∀ key, watch.since key base →
      Past (cursorOf (e.before.row .cursor)) key → Within (cursorOf (e.after.row .cursor)) key →
        ∃ e' ∈ newer, e'.id = e.id ∧ Offers e' key)

/-- What a run has done: nothing, or it has read the place when the history was
`base` and offered the commands `dealt`, or it is done. -/
inductive Phase (K : Type) [LinearOrder K]
  | starting
  | sweeping (base : List (Entry K)) (dealt : List K)
  | done

/-- What the history shows of a run that has read the place. -/
structure Swept (i : ℕ) (base : List (Entry K)) (dealt : List K) (history : List (Entry K)) : Prop where
  read : base <:+ history
  fresh : ∀ e ∈ base, e.id ≠ i
  dealt : ∀ key, key ∈ dealt ↔ ∃ e ∈ history, e.id = i ∧ Offers e key

def Phase.Sound (i : ℕ) (history : List (Entry K)) : Phase K → Prop
  | starting => ∀ e ∈ history, e.id ≠ i
  | sweeping base dealt => Swept i base dealt history
  | done => True

/-! ## The invariant -/

structure SweepSound (start : Option (CursorRow K)) (watch : Watch K) (w : View (Key K) (Row K) (SweepRun K))
    (g : ℕ → Option (Phase K)) : Prop where
  pending : ∀ key, watch.since key w.history → Pending w.table key
  place : w.table.row .cursor = placeAt start w.history
  linked : ∀ e older, e :: older <:+ w.history → e.before.row .cursor = placeAt start older
  written : ∀ e older, e :: older <:+ w.history → WritesPlace e → Written start watch e older
  held : HeldFor (heldOf start) (heldOf (w.table.row .cursor)).toNat w.history
  phases : ∀ i x, g i = some x → x.Sound i w.history

theorem Watch.mono (watch : Watch K) {key : K} {older history : List (Entry K)} (h : watch.since key older)
    (hsuffix : older <:+ history) : watch.since key history := by
  obtain ⟨newer, rfl⟩ := hsuffix
  induction newer with
  | nil => exact h
  | cons e newer ih => exact watch.later key e _ ih

theorem Phase.Sound.other {i : ℕ} {history : List (Entry K)} {x : Phase K} {e : Entry K}
    (h : x.Sound i history) (he : e.id ≠ i) : x.Sound i (e :: history) := by
  cases x with
  | starting => exact List.forall_mem_cons.mpr ⟨he, h⟩
  | sweeping base dealt =>
      refine ⟨h.read.trans (List.suffix_cons _ _), h.fresh, fun key => (h.dealt key).trans ?_⟩
      simp only [List.mem_cons, exists_eq_or_imp, he, false_and, false_or]
  | done => trivial

variable {start : Option (CursorRow K)} {watch : Watch K} {w : View (Key K) (Row K) (SweepRun K)}
  {g : ℕ → Option (Phase K)} {i : ℕ} {r : SweepRun K}

/-- A commit that leaves the table as it is for the scans. -/
theorem SweepSound.commit {ops : List (Write (Key K) (Row K))} {y : Phase K} (hg : SweepSound start watch w g)
    (hitems : ∀ key, (w.table.apply ops).row (.item key) = w.table.row (.item key))
    (hwritten : WritesPlace ⟨i, r, w.clock, w.table, w.table.apply ops⟩ →
      Written start watch ⟨i, r, w.clock, w.table, w.table.apply ops⟩ w.history)
    (hheld : HeldFor (heldOf start) (heldOf ((w.table.apply ops).row .cursor)).toNat (w.commit i r ops).history)
    (hy : y.Sound i (w.commit i r ops).history) :
    SweepSound start watch (w.commit i r ops) (Function.update g i (some y)) where
  pending key hsince := by
    rcases watch.first key _ _ hsince with hbefore | hafter
    · obtain ⟨row, hrow, hpending⟩ := hg.pending key hbefore
      exact ⟨row, (hitems key).trans hrow, hpending⟩
    · exact hafter
  place := rfl
  linked e older hsuffix := by
    rcases List.suffix_cons_iff.mp hsuffix with heq | hsuffix
    · cases heq
      exact hg.place
    · exact hg.linked e older hsuffix
  written e older hsuffix := by
    rcases List.suffix_cons_iff.mp hsuffix with heq | hsuffix
    · cases heq
      exact hwritten
    · exact hg.written e older hsuffix
  held := hheld
  phases j x hj := by
    by_cases hij : j = i
    · subst hij
      rw [Function.update_self] at hj
      cases hj
      exact hy
    · rw [Function.update_of_ne hij] at hj
      exact (hg.phases j x hj).other (Ne.symm hij)

/-- The value of one run changes, and nothing else. -/
theorem SweepSound.learn {y : Phase K} (hg : SweepSound start watch w g) (hy : y.Sound i w.history) :
    SweepSound start watch w (Function.update g i (some y)) where
  pending := hg.pending
  place := hg.place
  linked := hg.linked
  written := hg.written
  held := hg.held
  phases j x hj := by
    by_cases hij : j = i
    · subst hij
      rw [Function.update_self] at hj
      cases hj
      exact hy
    · rw [Function.update_of_ne hij] at hj
      exact hg.phases j x hj

/-- Since a place was read, either no place was stored or the version has risen. -/
theorem SweepSound.version_rises (hg : SweepSound start watch w g) {newer base : List (Entry K)}
    (h : newer ++ base <:+ w.history) :
    ((∀ e ∈ newer, ¬ WritesPlace e) ∧ placeAt start (newer ++ base) = placeAt start base) ∨
      ((placeAt start (newer ++ base)).isSome = true ∧
        versionOf (placeAt start base) < versionOf (placeAt start (newer ++ base))) := by
  induction newer with
  | nil => exact .inl ⟨fun _ he => absurd he List.not_mem_nil, rfl⟩
  | cons e newer ih =>
      have hlinked := hg.linked e (newer ++ base) h
      have hrest := ih ((List.suffix_cons _ _).trans h)
      by_cases hwrites : WritesPlace e
      · obtain ⟨hstored, hversion, -⟩ := hg.written e (newer ++ base) h hwrites
        refine .inr ⟨hstored, ?_⟩
        rw [hlinked] at hversion
        change versionOf (placeAt start base) < versionOf (e.after.row .cursor)
        rcases hrest with ⟨-, hsame⟩ | ⟨-, hlt⟩
        · rw [hsame] at hversion
          omega
        · omega
      · have hsame : placeAt start (e :: newer ++ base) = placeAt start (newer ++ base) :=
          (not_not.mp hwrites).trans hlinked
        rw [hsame]
        exact hrest.imp_left fun hquiet => ⟨List.forall_mem_cons.mpr ⟨hwrites, hquiet.1⟩, hquiet.2⟩

/-! ## Offers -/

section

variable {base : List (Entry K)} {dealt : List K}

theorem row_marksOffer_of_ne (t : Table (Key K) (Row K)) {key : K} {k : Key K} (h : k ≠ .offers key) :
    (t.apply (marksOffer key)).row k = t.row k :=
  Table.row_set_of_ne t _ h

theorem offers_marksOffer {key other : K} :
    Offers ⟨i, r, w.clock, w.table, w.table.apply (marksOffer key)⟩ other ↔ other = key := by
  by_cases hkey : other = key
  · subst hkey
    have hafter : (w.table.apply (marksOffer other)).row (.offers other) =
        some ((w.table.row (.offers other)).getD 0 + 1) := Table.row_set_self w.table _ _
    refine iff_of_true ?_ rfl
    change (w.table.apply (marksOffer other)).row (.offers other) ≠ w.table.row (.offers other)
    rw [hafter]
    cases (w.table.row (.offers other) : Option ℕ) <;> simp
  · refine iff_of_false (fun h => h (row_marksOffer_of_ne w.table ?_)) hkey
    simp [hkey]

/-- A command is offered. -/
theorem SweepSound.offer (hg : SweepSound start watch w g) (hi : g i = some (.sweeping base dealt)) (key : K) :
    SweepSound start watch (w.commit i r (marksOffer key))
      (Function.update g i (some (.sweeping base (key :: dealt)))) := by
  have hcursor : (w.table.apply (marksOffer key)).row .cursor = w.table.row .cursor :=
    row_marksOffer_of_ne w.table (by simp)
  have hswept : Swept i base dealt w.history := hg.phases i _ hi
  refine hg.commit (fun _ => row_marksOffer_of_ne w.table (by simp)) (fun h => absurd hcursor h) ?_ ?_
  · rw [hcursor]
    exact .other (fun h => h hcursor) hg.held
  · refine ⟨hswept.read.trans (List.suffix_cons _ _), hswept.fresh, fun other => ?_⟩
    rw [View.history_commit]
    simp only [List.mem_cons, exists_eq_or_imp, offers_marksOffer, hswept.dealt other, true_and]

/-- All commands were offered, and so many of them failed. -/
def Tallied (r : SweepRun K) (base : List (Entry K)) (dealt commands : List K) (retryable : ℕ) :
    Except Raised DeletionJobSummary → Phase K → Prop
  | .ok tally, .sweeping base' dealt' => base' = base ∧ (∀ key, key ∈ dealt' ↔ key ∈ dealt ∨ key ∈ commands) ∧
      tally.retryable = retryable + commands.countP fun key => (r.outcome key).failed
  | _, _ => False

theorem retryable_count (summary : DeletionJobSummary) (outcome : Outcome) :
    (summary.count outcome).retryable = summary.retryable + if outcome.failed then 1 else 0 := by
  cases outcome <;> rfl

theorem keeps_offerAll {F : Access (Key K) (Row K)} (hF : ∀ ops t, F.refuses ops t → ¬ t.Admits ops)
    (commands : List K) (summary : DeletionJobSummary) :
    (offerAll r commands summary).run.Keeps F (SweepSound start watch) (fun _ _ => True) i r
      (Tallied r base dealt commands summary.retryable) (.sweeping base dealt) := by
  induction commands generalizing summary dealt with
  | nil => exact ⟨rfl, by simp, by simp⟩
  | cons key rest ih =>
      intro w g hg hi
      have hadmits : w.table.Admits (marksOffer key) :=
        ⟨List.nodup_singleton _, fun write hwrite => by rw [List.mem_singleton.mp hwrite]; rfl⟩
      have hnext : (offerAll r rest (summary.count (r.outcome key))).run.Keeps F (SweepSound start watch)
          (fun _ _ => True) i r (Tallied r base dealt (key :: rest) summary.retryable)
          (.sweeping base (key :: dealt)) := by
        refine (ih (summary.count (r.outcome key))).mono fun result y hy => ?_
        cases result with
        | error e => exact hy.elim
        | ok tally =>
            cases y with
            | starting => exact hy.elim
            | done => exact hy.elim
            | sweeping base' dealt' =>
                obtain ⟨hbase, hdealt, hcount⟩ := hy
                refine ⟨hbase, fun other => (hdealt other).trans ?_, ?_⟩
                · simp only [List.mem_cons]
                  tauto
                · rw [hcount, retryable_count, List.countP_cons]
                  omega
      exact ⟨fun hrefused => absurd hadmits (hF _ _ hrefused), fun _ _ =>
        ⟨⟨_, hg.offer hi key, hnext⟩, fun _ => ⟨_, hg.offer hi key, hnext⟩⟩⟩

end

/-! ## Discovery -/

/-- Every command up to where the scans have stopped was found. -/
def Discovered (watch : Watch K) (base : List (Entry K)) (place : Option K) (found : Discovery K) : Prop :=
  found.anomalous = false → ∀ key, watch.since key base → Past place key → Within found.cursor key →
    key ∈ found.commands

section

variable {F : Access (Key K) (Row K)} {base : List (Entry K)} {dealt : List K} {place : Option K}

theorem isAfter_item {cursor : Option K} {key : K} : isAfter cursor (.item key) = true ↔ Past cursor key := by
  cases cursor <;> simp [isAfter, Past]

/-- What a page shows of the rows that are pending. -/
theorem SweepSound.page (hg : SweepSound start watch w g) (hi : g i = some (.sweeping base dealt))
    {cursor : Option K} {rows : List ((k : Key K) × Row K k)} (ha : w.table.Answers (isAfter cursor) rows)
    {limit : ℕ} (hlimit : 0 < limit) {key : K} (hsince : watch.since key base) (hpast : Past cursor key)
    (hwithin : Within (readPage limit (itemsOf rows)).cursor key) :
    key ∈ (readPage limit (itemsOf rows)).items := by
  have hswept : Swept i base dealt w.history := hg.phases i _ hi
  obtain ⟨row, hrow, hpending⟩ := hg.pending key (watch.mono hsince hswept.read)
  refine mem_readPage hlimit ?_ hpending (fun row' hrow' => ?_) hwithin
  · exact mem_itemsOf.mpr (ha.mem_iff.mpr ⟨isAfter_item.mpr hpast, hrow⟩)
  · obtain ⟨-, hstored⟩ := ha.mem_iff.mp (mem_itemsOf.mp hrow')
    cases hrow.symm.trans hstored
    rfl

omit r in
theorem discovered_stopped {commands : List K} {cursor : Option K} {unfinished : Bool}
    (hfound : ∀ c ∈ cursor, ∀ key, watch.since key base → Past place key → key ≤ c → key ∈ commands)
    (hcursor : cursor ≠ none) : Discovered watch base place ⟨commands, cursor, unfinished, false⟩ := by
  intro _ key hsince hpast hwithin
  obtain ⟨c, rfl⟩ := Option.ne_none_iff_exists'.mp hcursor
  exact hfound c rfl key hsince hpast (hwithin c rfl)

theorem keeps_scan_bind {α : Type} {Q : Except Raised α → Phase K → Prop} {f : Page K → Action K α}
    {limit : ℕ} {cursor : Option K} (hlimit : 0 < limit) (herror : ∀ e, Q (.error e) (.sweeping base dealt))
    (h : ∀ page : Page K, page.items.length ≤ limit → (∀ key, watch.since key base → Past cursor key →
      Within page.cursor key → key ∈ page.items) →
        (f page).run.Keeps F (SweepSound start watch) (fun _ _ => True) i r Q (.sweeping base dealt)) :
    (scanPendingDeletionCommands limit cursor >>= f).run.Keeps F (SweepSound start watch) (fun _ _ => True) i r
      Q (.sweeping base dealt) := by
  refine Handler.keeps_bind (Handler.keeps_list_bind_learn (fun w g rows hg hi ha => .same hg hi ?_) (herror _))
  refine h (readPage (min (max limit 1) 100) (itemsOf rows)) ?_ fun key hsince hpast hwithin => ?_
  · have hlength := length_readPage (min (max limit 1) 100) (itemsOf rows)
    omega
  · exact hg.page hi ha (by omega) hsince hpast hwithin

theorem keeps_discover {limit : ℕ} (pages : ℕ) {commands : List K} {cursor : Option K} {seen : List K}
    (hfound : ∀ c ∈ cursor, ∀ key, watch.since key base → Past place key → key ≤ c → key ∈ commands)
    (htop : cursor = none → commands.length < limit ∧ 0 < pages) :
    (discover limit pages commands cursor seen).run.Keeps F (SweepSound start watch) (fun _ _ => True) i r
      (fun result y => y = .sweeping base dealt ∧ ∀ found, result = .ok found →
        Discovered watch base place found) (.sweeping base dealt) := by
  induction pages generalizing commands cursor seen with
  | zero =>
      refine ⟨rfl, fun found heq => ?_⟩
      cases heq
      exact discovered_stopped hfound fun hnone => absurd (htop hnone).2 (lt_irrefl 0)
  | succ pages ih =>
      unfold discover
      by_cases hlt : commands.length < limit
      · rw [if_pos hlt]
        refine keeps_scan_bind (by omega) (fun e => ⟨rfl, fun _ heq => by cases heq⟩) fun page hlength hpage => ?_
        have hreached : ∀ key, watch.since key base → Past place key → Within page.cursor key →
            key ∈ commands ++ page.items.take (max (limit - commands.length) 1) := by
          intro key hsince hpast hwithin
          rw [List.take_of_length_le hlength]
          by_cases hbefore : ∃ c ∈ cursor, key ≤ c
          · obtain ⟨c, hc, hle⟩ := hbefore
            exact List.mem_append_left _ (hfound c hc key hsince hpast hle)
          · exact List.mem_append_right _ (hpage key hsince
              (fun c hc => not_le.mp fun hle => hbefore ⟨c, hc, hle⟩) hwithin)
        dsimp only
        cases hnext : page.cursor with
        | none =>
            refine ⟨rfl, fun found heq _ key hsince hpast _ => ?_⟩
            cases heq
            exact hreached key hsince hpast fun c hc => by rw [hnext] at hc; cases hc
        | some next =>
            dsimp only
            split
            · refine ⟨rfl, fun found heq hnot => ?_⟩
              cases heq
              cases hnot
            · refine ih (fun c hc key hsince hpast hle => hreached key hsince hpast fun c' hc' => ?_)
                fun hnone => by cases hnone
              rw [hnext] at hc'
              cases hc.symm.trans hc'
              exact hle
      · rw [if_neg hlt]
        refine ⟨rfl, fun found heq => ?_⟩
        cases heq
        exact discovered_stopped hfound fun hnone => hlt (htop hnone).1

end

/-! ## The place is stored -/

/-- Why a run that has read `place` may store a place. -/
inductive Move (watch : Watch K) (r : SweepRun K) (base : List (Entry K)) (dealt : List K)
    (place : DeletionScanCursor K) (cursor : Option K) (held : ℤ) : Prop
  | hold (hcursor : cursor = place.cursor) (hheld : held = place.heldRuns + 1)
      (hfails : ∃ key ∈ dealt, (r.outcome key).failed = true)
  | pass (hheld : held = 0)
      (hdealt : (∀ key ∈ dealt, (r.outcome key).failed = false) ∨ HOLD_LIMIT ≤ place.heldRuns)
      (hreached : ∀ key, watch.since key base → Past place.cursor key → Within cursor key → key ∈ dealt)

section

variable {F : Access (Key K) (Row K)} {base : List (Entry K)} {dealt : List K} {place : DeletionScanCursor K}
  {isTimestamp : String → Bool}

omit [LinearOrder K] in
theorem atVersion_some {version : ℤ} {stored : Option (CursorRow K)} (h : atVersion (some version) stored = true) :
    versionOf stored = version := by
  cases stored with
  | none => cases h
  | some item =>
      have hversion : item.version = some version := of_decide_eq_true h
      simp [versionOf, hversion]

/-- A place is stored over the place that the run has read. -/
theorem SweepSound.unmoved (hg : SweepSound start watch w g) (hi : g i = some (.sweeping base dealt))
    (hplace : readPlace isTimestamp (placeAt start base) = .ok place)
    (hat : atVersion place.version (w.table.row .cursor) = true) :
    ∃ newer, w.history = newer ++ base ∧ (∀ e ∈ newer, ¬ WritesPlace e) ∧
      w.table.row .cursor = placeAt start base := by
  have hswept : Swept i base dealt w.history := hg.phases i _ hi
  obtain ⟨newer, hnewer⟩ := hswept.read
  obtain ⟨-, -, hversion, hstored⟩ := readPlace_eq_ok hplace
  refine ⟨newer, hnewer.symm, ?_⟩
  rw [hg.place, ← hnewer] at hat ⊢
  have hall : newer ++ base <:+ w.history := hnewer ▸ List.suffix_rfl
  rcases hg.version_rises hall with hquiet | ⟨hsome, hlt⟩
  · exact hquiet
  · cases hread : placeAt start base with
    | none =>
        rw [hread] at hversion
        rw [hversion] at hat
        cases hnow : placeAt start (newer ++ base) with
        | none => rw [hnow] at hsome; cases hsome
        | some item => rw [hnow] at hat; cases hat
    | some item =>
        rw [hread] at hversion hstored
        obtain ⟨version, heq⟩ := Option.isSome_iff_exists.mp (hstored rfl)
        rw [heq] at hat
        have hbefore : versionOf (placeAt start base) = version := by
          rw [hread, versionOf, ← hversion, heq]
          rfl
        have hnow := atVersion_some hat
        omega

/-- What a stored row says beside the one before it. -/
structure Follows (place : DeletionScanCursor K) (cursor : Option K) (held : ℤ)
    (before after : Option (CursorRow K)) : Prop where
  cursorBefore : cursorOf before = place.cursor
  heldBefore : heldOf before = place.heldRuns
  stored : after.isSome = true
  version : versionOf after = versionOf before + 1
  cursorAfter : cursorOf after = cursor
  heldAfter : heldOf after = held

theorem Move.written {cursor : Option K} {held : ℤ} (h : Move watch r base dealt place cursor held)
    {e : Entry K} {older newer : List (Entry K)} (hcall : e.call = r)
    (hfollows : Follows place cursor held (e.before.row .cursor) (e.after.row .cursor))
    (holder : older = newer ++ base) (hquiet : ∀ e' ∈ newer, ¬ WritesPlace e')
    (hswept : Swept e.id base dealt older)
    (hheld : HeldFor (heldOf start) (heldOf (e.before.row .cursor)).toNat older) :
    Written start watch e older ∧ HeldFor (heldOf start) (heldOf (e.after.row .cursor)).toNat (e :: older) := by
  have hnonneg : 0 ≤ heldOf (e.before.row .cursor) := le_max_right _ _
  have hwrites : WritesPlace e := by
    intro hsame
    have hversion := hfollows.version
    rw [hsame] at hversion
    omega
  cases h with
  | hold hcursor hruns hfails =>
      have hcounted : heldOf (e.after.row .cursor) = heldOf (e.before.row .cursor) + 1 := by
        rw [hfollows.heldAfter, hfollows.heldBefore, hruns]
      have hstays : cursorOf (e.after.row .cursor) = cursorOf (e.before.row .cursor) := by
        rw [hfollows.cursorAfter, hfollows.cursorBefore, hcursor]
      have hfailed : Fails e older := by
        obtain ⟨key, hkey, hfailed⟩ := hfails
        obtain ⟨e', he', hid, hoffers⟩ := (hswept.dealt key).mp hkey
        exact ⟨e', he', hid, key, hoffers, hcall ▸ hfailed⟩
      refine ⟨⟨hfollows.stored, hfollows.version, .inl ⟨hstays, hfailed, hcounted⟩, newer, base, holder, hquiet,
        fun hzero => ?_⟩, ?_⟩
      · omega
      · rw [hcounted, Int.toNat_add hnonneg (by decide)]
        exact .held hwrites hstays hfailed hheld
  | pass hruns hdealt hreached =>
      have hcounted : heldOf (e.after.row .cursor) = 0 := hfollows.heldAfter.trans hruns
      refine ⟨⟨hfollows.stored, hfollows.version, .inr ⟨hcounted, ?_⟩, newer, base, holder, hquiet,
        fun _ key hsince hpast hwithin => ?_⟩, ?_⟩
      · rcases hdealt with hdealt | hlimit
        · refine .inl fun hfails => ?_
          obtain ⟨e', he', hid, key, hoffers, hfailed⟩ := hfails
          have hnot := hdealt key ((hswept.dealt key).mpr ⟨e', he', hid, hoffers⟩)
          rw [hcall, hnot] at hfailed
          cases hfailed
        · refine .inr ⟨_, ?_, hheld⟩
          rw [Int.toNat_of_nonneg hnonneg, hfollows.heldBefore]
          exact hlimit
      · rw [hfollows.cursorBefore] at hpast
        rw [hfollows.cursorAfter] at hwithin
        obtain ⟨e', he', hid, hoffers⟩ := (hswept.dealt key).mp (hreached key hsince hpast hwithin)
        rw [holder] at he'
        rcases List.mem_append.mp he' with hnewer | hbase
        · exact ⟨e', hnewer, hid, hoffers⟩
        · exact absurd hid (hswept.fresh e' hbase)
      · rw [hcounted]
        exact .none _

theorem SweepSound.store (hg : SweepSound start watch w g) (hi : g i = some (.sweeping base dealt))
    (hplace : readPlace isTimestamp (placeAt start base) = .ok place) {cursor : Option K} {held : ℤ}
    (hnonneg : 0 ≤ held) (hmove : Move watch r base dealt place cursor held) {item : CursorRow K}
    {condition : Option (CursorRow K) → Bool} (hcursor : item.cursor = cursor.map some)
    (hheld : item.heldRuns = some held) (hversion : item.version = some (place.version.getD 0 + 1))
    (hat : atVersion place.version (w.table.row .cursor) = true) :
    SweepSound start watch (w.commit i r [.put .cursor item condition])
      (Function.update g i (some .done)) := by
  obtain ⟨newer, hhistory, hquiet, hrow⟩ := hg.unmoved hi hplace hat
  obtain ⟨hplaceCursor, hplaceHeld, hplaceVersion, -⟩ := readPlace_eq_ok hplace
  rw [← hrow] at hplaceCursor hplaceHeld hplaceVersion
  have hafter : (w.table.apply [.put .cursor item condition]).row .cursor = some item :=
    Table.row_set_self w.table _ _
  have hfollows : Follows place cursor held (w.table.row .cursor)
      ((w.table.apply [.put .cursor item condition]).row .cursor) := by
    rw [hafter]
    refine ⟨hplaceCursor.symm, hplaceHeld.symm, rfl, ?_, ?_, ?_⟩
    · simp only [versionOf, Option.bind_some, hversion, hplaceVersion, Option.getD_some]
    · cases cursor <;> simp [cursorOf, hcursor]
    · simp [heldOf, hheld, hnonneg]
  obtain ⟨hwritten, hheldFor⟩ := hmove.written
    (e := ⟨i, r, w.clock, w.table, w.table.apply [.put .cursor item condition]⟩) rfl hfollows hhistory hquiet
    (hg.phases i _ hi) hg.held
  exact hg.commit (fun key => Table.row_set_of_ne w.table _ (by simp : Key.item key ≠ .cursor))
    (fun _ => hwritten) hheldFor trivial

theorem keeps_advance {cursor : Option K} {held : ℤ} {cycleStartedAt : Option String} {updatedAt : String}
    (hplace : readPlace isTimestamp (placeAt start base) = .ok place)
    (hmove : Move watch r base dealt place cursor held) :
    (advanceDeletionScanCursor isTimestamp place.version cursor cycleStartedAt updatedAt held).run.Keeps F
      (SweepSound start watch) (fun _ _ => True) i r (fun _ _ => True) (.sweeping base dealt) := by
  refine Handler.keeps_of_bind (fun _ _ => ?_) fun _ _ => trivial
  refine Handler.keeps_of_bind (fun _ hnonneg => ?_) fun _ _ => trivial
  refine Handler.keeps_of_bind (fun _ _ => ?_) fun _ _ => trivial
  intro w g hg hi
  refine ⟨fun _ => .same hg hi trivial, fun ha _ => ?_⟩
  have hheld : 0 ≤ held := by
    split at hnonneg
    · cases hnonneg
    · rename_i hnot
      exact not_lt.mp hnot
  have hat := ha.2 _ (List.mem_singleton_self _)
  exact ⟨⟨_, hg.store hi hplace hheld hmove rfl rfl rfl hat, trivial⟩,
    fun _ => ⟨_, hg.store hi hplace hheld hmove rfl rfl rfl hat, trivial⟩⟩

theorem keeps_storePlace {found : Discovery K} {retryable : ℕ}
    (hplace : readPlace isTimestamp (placeAt start base) = .ok place)
    (hfound : Discovered watch base place.cursor found) (hdealt : ∀ key, key ∈ dealt ↔ key ∈ found.commands)
    (hretryable : retryable = found.commands.countP fun key => (r.outcome key).failed) :
    (storePlace isTimestamp r place found retryable).run.Keeps F (SweepSound start watch) (fun _ _ => True) i r
      (fun _ _ => True) (.sweeping base dealt) := by
  unfold storePlace
  dsimp only
  split
  · trivial
  · rename_i hanomalous
    split
    · rename_i hhold
      obtain ⟨key, hkey, hfailed⟩ := List.countP_pos_iff.mp (hretryable ▸ hhold.1)
      exact keeps_advance hplace (.hold rfl rfl ⟨key, (hdealt key).mpr hkey, hfailed⟩)
    · rename_i hpass
      refine keeps_advance hplace (.pass rfl ?_ fun key hsince hpast hwithin => ?_)
      · rcases Nat.eq_zero_or_pos retryable with hzero | hpos
        · refine .inl fun key hkey => ?_
          have hnone := List.countP_eq_zero.mp (hretryable ▸ hzero) key ((hdealt key).mp hkey)
          simpa using hnone
        · exact .inr (not_lt.mp fun hlt => hpass ⟨hpos, hlt⟩)
      · exact (hdealt key).mpr (hfound (by simpa using hanomalous) key hsince hpast hwithin)

/-! ## A whole run -/

theorem keeps_runPendingDeletions (hF : ∀ ops t, F.refuses ops t → ¬ t.Admits ops) :
    (runPendingDeletions isTimestamp r).run.Keeps F (SweepSound start watch) (fun _ _ => True) i r
      (fun _ _ => True) .starting := by
  refine Handler.keeps_bind (Handler.keeps_get_bind_learn (fun w g hg hi => ?_) trivial)
  have hfresh : ∀ e ∈ w.history, e.id ≠ i := hg.phases i _ hi
  have hswept : Swept i w.history [] w.history :=
    ⟨List.suffix_rfl, hfresh, fun key => iff_of_false List.not_mem_nil fun h => by
      obtain ⟨e, he, hid, -⟩ := h
      exact hfresh e he hid⟩
  refine ⟨.sweeping w.history [], hg.learn hswept, ?_⟩
  rw [hg.place]
  generalize w.history = base
  cases hplace : readPlace isTimestamp (placeAt start base) with
  | error e => trivial
  | ok place =>
      have hlimit : 0 < r.limit := by
        unfold SweepRun.limit
        omega
      have htop : ∀ c ∈ place.cursor, ∀ key, watch.since key base → Past place.cursor key → key ≤ c →
          key ∈ ([] : List K) :=
        fun c hc key _ hpast hle => absurd (hpast c hc) (not_lt.mpr hle)
      refine Handler.keeps_bind ((keeps_discover 100 htop fun _ => ⟨hlimit, by decide⟩).mono fun result y hy => ?_)
      obtain ⟨rfl, hfound⟩ := hy
      cases result with
      | error e => trivial
      | ok found =>
          refine Handler.keeps_bind ((keeps_offerAll hF found.commands _).mono fun result y hy => ?_)
          cases result with
          | error e => trivial
          | ok tally =>
              cases y with
              | starting => exact hy.elim
              | done => exact hy.elim
              | sweeping base' dealt' =>
                  obtain ⟨rfl, hdealt, hcount⟩ := hy
                  refine Handler.keeps_bind ((keeps_storePlace hplace (hfound found rfl)
                    (fun key => (hdealt key).trans (by simp)) (by simpa using hcount)).mono fun result _ _ => ?_)
                  cases result <;> trivial

end

/-! ## Runs -/

section

variable {isTimestamp : String → Bool} {t : Table (Key K) (Row K)}
  {s : State (Key K) (Row K) (SweepRun K) (Except Raised DeletionJobSummary)}

theorem sweep_sound (watch : Watch K) (h : StepsWhere (sweepService K isTimestamp)
    (fun m m' => ∀ key, watch.since key m.history → Pending m'.table key) (.initial t) s) :
    ∃ g, SweepSound (t.row .cursor) watch s.view g := by
  have hinitial : SweepSound (t.row .cursor) watch ⟨t, 0, []⟩ fun _ => none := by
    refine ⟨fun key hsince => absurd hsince (watch.none key), rfl, fun _ _ hsuffix => ?_, fun _ _ hsuffix => ?_,
      .start (Int.toNat_of_nonneg (le_max_right _ _)).le, fun _ _ hi => by cases hi⟩
    · exact absurd (List.suffix_nil.mp hsuffix) (List.cons_ne_nil _ _)
    · exact absurd (List.suffix_nil.mp hsuffix) (List.cons_ne_nil _ _)
  obtain ⟨g, hg⟩ := StepsWhere.kept_along (F := (sweepService K isTimestamp).faults.access)
    (Φ := SweepSound (t.row .cursor) watch) (Q := fun _ _ _ => True) h hinitial
    (fun w g i hg => { hg with
      phases := fun j x hj => by
        by_cases hij : j = i
        · subst hij
          rw [Function.update_self] at hj
          cases hj
        · rw [Function.update_of_ne hij] at hj
          exact hg.phases j x hj })
    (fun m m' g t' hP hm hg hdrift _ => { hg with
      pending := fun key hsince => by
        have hpending := hP key hsince
        rwa [hm] at hpending
      place := hdrift.1.trans hg.place
      held := by
        change HeldFor _ (heldOf (t'.row .cursor)).toNat _
        rw [hdrift.1]
        exact hg.held })
    (fun m m' g n _ _ hg _ => { hg with })
    (fun m m' c g _ _ hg _ hfresh _ => ⟨.starting, hg.learn hfresh,
      keeps_runPendingDeletions fun _ _ hrefused hadmits => hrefused.elim id fun hnot => hnot hadmits⟩)
    id id (fun _ _ _ _ _ _ => trivial) fun _ _ _ _ _ _ _ hrefused => hrefused
  exact ⟨g, hg.holds⟩

/-- No row is looked at. -/
def Watch.nothing : Watch K where
  since _ _ := False
  none _ := id
  later _ _ _ := id
  first _ _ _ := .inl

/-- A row that is pending from the commit `first` on. -/
def Watch.from (watched : K) (first : Entry K) (older : List (Entry K)) (h : Pending first.after watched) :
    Watch K where
  since key history := key = watched ∧ first :: older <:+ history
  none _ hsince := absurd (List.suffix_nil.mp hsince.2) (List.cons_ne_nil _ _)
  later _ _ _ hsince := ⟨hsince.1, hsince.2.trans (List.suffix_cons _ _)⟩
  first key e rest hsince := by
    rcases List.suffix_cons_iff.mp hsince.2 with heq | hsuffix
    · cases heq
      exact .inr (hsince.1 ▸ h)
    · exact .inl ⟨hsince.1, hsuffix⟩

/-- A commit that stores a place is not among those that store none. -/
theorem suffix_of_quiet {e : Entry K} {mid rest newer base : List (Entry K)}
    (h : mid ++ e :: rest = newer ++ base) (hwrites : WritesPlace e) (hquiet : ∀ e' ∈ newer, ¬ WritesPlace e') :
    e :: rest <:+ base ∧ ∀ e' ∈ newer, e' ∈ mid := by
  rcases List.append_eq_append_iff.mp h with ⟨more, hnewer, hrest⟩ | ⟨more, hmid, hbase⟩
  · cases more with
    | nil =>
        rw [List.append_nil] at hnewer
        exact ⟨hrest ▸ List.suffix_rfl, fun e' he' => hnewer ▸ he'⟩
    | cons e' more =>
        cases hrest
        exact absurd hwrites (hquiet e (hnewer ▸ List.mem_append_right _ (List.mem_cons_self ..)))
  · exact ⟨⟨more, hbase.symm⟩, fun e' he' => hmid ▸ List.mem_append_left _ he'⟩

/-- A slice that is passed over since the place `e₀` was stored. -/
theorem SweepSound.slice {w : View (Key K) (Row K) (SweepRun K)} {g : ℕ → Option (Phase K)}
    {start : Option (CursorRow K)} {watch : Watch K} {key : K} {e e₀ : Entry K} {mid rest : List (Entry K)}
    (hg : SweepSound start watch w g) (hsuffix : e :: (mid ++ e₀ :: rest) <:+ w.history)
    (hwrites : WritesPlace e) (hbefore : WritesPlace e₀) (hsince : watch.since key (e₀ :: rest))
    (hpassed : heldOf (e.after.row .cursor) = 0) (hpast : Past (cursorOf (e.before.row .cursor)) key)
    (hwithin : Within (cursorOf (e.after.row .cursor)) key) : ∃ e' ∈ mid, e'.id = e.id ∧ Offers e' key := by
  obtain ⟨newer, base, hsplit, hquiet, hcovers⟩ := (hg.written e _ hsuffix hwrites).covers
  obtain ⟨hbase, hmem⟩ := suffix_of_quiet hsplit hbefore hquiet
  obtain ⟨e', he', hid, hoffers⟩ := hcovers hpassed key (watch.mono hsince hbase) hpast hwithin
  exact ⟨e', hmem e' he', hid, hoffers⟩

/-- After an end of the table, a command was offered or is still ahead. -/
theorem SweepSound.offered_or_past {w : View (Key K) (Row K) (SweepRun K)} {g : ℕ → Option (Phase K)}
    {start : Option (CursorRow K)} {watch : Watch K} {key : K} {first : Entry K} {older newer : List (Entry K)}
    (hg : SweepSound start watch w g) (hends : Ends first) (hsince : watch.since key (first :: older))
    (hsuffix : newer ++ first :: older <:+ w.history) :
    (∃ e ∈ newer, Offers e key) ∨ Past (cursorOf (placeAt start (newer ++ first :: older))) key := by
  induction newer with
  | nil =>
      refine .inr fun c hc => ?_
      have hnone : cursorOf (placeAt start (first :: older)) = none := hends.cursor
      rw [List.nil_append, hnone] at hc
      cases hc
  | cons e newer ih =>
      have hrest := ih ((List.suffix_cons _ _).trans hsuffix)
      have hlinked := hg.linked e (newer ++ first :: older) hsuffix
      rcases hrest with ⟨e', he', hoffers⟩ | hpast
      · exact .inl ⟨e', List.mem_cons_of_mem _ he', hoffers⟩
      · rw [← hlinked] at hpast
        change (∃ e' ∈ e :: newer, Offers e' key) ∨ Past (cursorOf (e.after.row .cursor)) key
        by_cases hwrites : WritesPlace e
        · rcases (hg.written e _ hsuffix hwrites).moves with hholds | hpasses
          · exact .inr (hholds.stays.symm ▸ hpast)
          · by_cases hwithin : Within (cursorOf (e.after.row .cursor)) key
            · obtain ⟨e', he', -, hoffers⟩ :=
                hg.slice hsuffix hwrites hends.writes hsince hpasses.counted hpast hwithin
              exact .inl ⟨e', List.mem_cons_of_mem _ he', hoffers⟩
            · refine .inr fun c hc => ?_
              by_contra hnot
              exact hwithin fun c' hc' => Option.some.inj (hc.symm.trans hc') ▸ not_lt.mp hnot
        · exact .inr ((not_not.mp hwrites).symm ▸ hpast)

/-- Every committed write of the place raises the version by one, and stays at a
slice or passes it for a reason. A command that is pending from an end of the table
on is offered by each run that passes its slice, and before the table ends again. -/
theorem pending_deletions_offered (h : Steps (sweepService K isTimestamp) (.initial t) s) :
    (∀ e older, e :: older <:+ s.history → WritesPlace e →
      versionOf (e.after.row .cursor) = versionOf (e.before.row .cursor) + 1 ∧
        (Holds e older ∨ Passes (heldOf (t.row .cursor)) e older)) ∧
    ∀ watched first older, Pending first.after watched →
      StepsWhere (sweepService K isTimestamp)
        (fun m m' => first :: older <:+ m.history → Pending m'.table watched) (.initial t) s →
      (∀ e mid e₀ rest, e :: (mid ++ e₀ :: rest) <:+ s.history → WritesPlace e → WritesPlace e₀ →
        first :: older <:+ e₀ :: rest → heldOf (e.after.row .cursor) = 0 →
        Past (cursorOf (e.before.row .cursor)) watched → Within (cursorOf (e.after.row .cursor)) watched →
          ∃ e' ∈ mid, e'.id = e.id ∧ Offers e' watched) ∧
      ∀ last mid, last :: (mid ++ first :: older) <:+ s.history → Ends first → Ends last →
        ∃ e ∈ mid, Offers e watched := by
  refine ⟨fun e older hsuffix hwrites => ?_, fun watched first older hpending hrun => ?_⟩
  · obtain ⟨g, hg⟩ := sweep_sound .nothing (h.where fun _ _ _ hfalse => hfalse.elim)
    obtain ⟨-, hversion, hmoves, -⟩ := hg.written e older hsuffix hwrites
    exact ⟨hversion, hmoves⟩
  · obtain ⟨g, hg⟩ := sweep_sound (.from watched first older hpending)
      (hrun.imp fun _ _ hstep _ hsince => hsince.1 ▸ hstep hsince.2)
    refine ⟨fun e mid e₀ rest hsuffix hwrites hbefore hsince => ?_, fun last mid hsuffix hfirst hlast => ?_⟩
    · exact hg.slice hsuffix hwrites hbefore ⟨rfl, hsince⟩
    · have hlinked := hg.linked last _ hsuffix
      rcases hg.offered_or_past hfirst ⟨rfl, List.suffix_rfl⟩ ((List.suffix_cons _ _).trans hsuffix)
        with hoffered | hpast
      · exact hoffered
      · obtain ⟨e, he, -, hoffers⟩ := hg.slice hsuffix hlast.writes hfirst.writes ⟨rfl, List.suffix_rfl⟩
          hlast.passed (hlinked ▸ hpast) fun c hc => by rw [hlast.cursor] at hc; cases hc
        exact ⟨e, he, hoffers⟩

end

end

/-! ## Four runs -/

theorem readOnly_discover {K : Type} [LinearOrder K] {limit : ℕ} (pages : ℕ) {commands : List K}
    {cursor : Option K} {seen : List K} : (discover limit pages commands cursor seen).run.ReadOnly := by
  induction pages generalizing commands cursor seen with
  | zero => trivial
  | succ pages ih =>
      unfold discover
      split
      · refine Handler.readOnly_bind (Handler.readOnly_bind Handler.readOnly_list fun _ => trivial) fun page => ?_
        dsimp only
        split
        · trivial
        · split
          · trivial
          · exact ih
      · trivial

namespace SweepSample

/-- One row a run. -/
def run : SweepRun ℕ := ⟨1, "now", fun _ => .continued⟩

def start : Table (Key ℕ) (Row ℕ) :=
  (Table.empty.set (.item 1) (some ⟨"account_deletion_command", "pending"⟩)).set (.item 2)
    (some ⟨"account_deletion_command", "running"⟩)

def service : Service (Key ℕ) (Row ℕ) (SweepRun ℕ) (Except Raised DeletionJobSummary) :=
  sweepService ℕ fun _ => true

abbrev Run := State (Key ℕ) (Row ℕ) (SweepRun ℕ) (Except Raised DeletionJobSummary)

def after : ℕ → Run
  | 0 => .initial start
  | n + 1 => (after n).solo service run []

abbrev KeepsRow (ops : List (Write (Key ℕ) (Row ℕ))) : Prop :=
  ∀ t, Pending t 1 → Pending (t.apply ops) 1

theorem keepsRow_offer (key : ℕ) : KeepsRow (marksOffer key) := by
  rintro t ⟨row, hrow, hpending⟩
  exact ⟨row, (row_marksOffer_of_ne t (by simp)).trans hrow, hpending⟩

theorem keepsRow_put (item : CursorRow ℕ) (condition : Option (CursorRow ℕ) → Bool) :
    KeepsRow [.put .cursor item condition] := by
  rintro t ⟨row, hrow, hpending⟩
  exact ⟨row, (Table.row_set_of_ne t _ (by simp : Key.item 1 ≠ .cursor)).trans hrow, hpending⟩

theorem submits_offerAll (commands : List ℕ) (summary : DeletionJobSummary) :
    (offerAll run commands summary).run.Submits KeepsRow := by
  induction commands generalizing summary with
  | nil => trivial
  | cons key rest ih => exact Handler.submits_submit_bind (keepsRow_offer key) fun _ => ih _

theorem submits_advance {version : Option ℤ} {cursor : Option ℕ} {cycleStartedAt : Option String}
    {updatedAt : String} {held : ℤ} :
    (advanceDeletionScanCursor (fun _ => true) version cursor cycleStartedAt updatedAt held).run.Submits
      KeepsRow := by
  refine Handler.submits_bind trivial fun _ => Handler.submits_bind trivial fun _ =>
    Handler.submits_bind trivial fun _ => ⟨keepsRow_put _ _, fun _ => trivial⟩

theorem submits_run : (service.body run).Submits KeepsRow := by
  refine Handler.submits_bind (Handler.submits_bind Handler.submits_get fun _ => trivial) fun place => ?_
  refine Handler.submits_bind (readOnly_discover 100).submits fun found => ?_
  refine Handler.submits_bind (submits_offerAll _ _) fun tally => Handler.submits_bind ?_ fun _ => trivial
  unfold storePlace
  dsimp only
  split
  · trivial
  · split
    · exact submits_advance
    · exact submits_advance

theorem start_pending : Pending start 1 := ⟨_, rfl, by decide⟩

theorem after_pending (n : ℕ) :
    StepsWhere service (fun _ m => Pending m.table 1) (.initial start) (after n) := by
  induction n with
  | zero => exact .refl
  | succ n ih => exact ih.solo (ih.holds start_pending) trivial submits_run

/-- What is decided of an end of the table. -/
abbrev EndsHere (e : Entry ℕ) : Prop :=
  versionOf (e.after.row .cursor) ≠ versionOf (e.before.row .cursor) ∧
    cursorOf (e.after.row .cursor) = none ∧ heldOf (e.after.row .cursor) = 0

theorem EndsHere.ends {e : Entry ℕ} (h : EndsHere e) : Ends e :=
  ⟨fun hsame => h.1 (congrArg versionOf hsame), h.2.1, h.2.2⟩

theorem after_four : ∃ last mid first older, (after 4).history = last :: (mid ++ first :: older) ∧
    EndsHere last ∧ EndsHere first ∧ Pending first.after 1 := by
  refine ⟨_, [_, _, _], _, _, rfl, ?_, ?_, ⟨_, rfl, ?_⟩⟩
  · decide
  · decide
  · decide

end SweepSample

theorem pending_deletions_offered_sample : ∃ first older last mid,
    last :: (mid ++ first :: older) = (SweepSample.after 4).history ∧ Ends first ∧ Ends last ∧
      ∃ e ∈ mid, Offers e 1 := by
  obtain ⟨last, mid, first, older, hhistory, hlast, hfirst, hpending⟩ := SweepSample.after_four
  have hrun := SweepSample.after_pending 4
  refine ⟨first, older, last, mid, hhistory.symm, hfirst.ends, hlast.ends, ?_⟩
  exact ((pending_deletions_offered hrun.steps).2 1 first older hpending (hrun.imp fun _ _ h _ => h)).2 last mid
    (hhistory ▸ List.suffix_rfl) hfirst.ends hlast.ends

end Stoa.DeletionSweep
