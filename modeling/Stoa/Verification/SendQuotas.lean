import Stoa.Model.SendQuota
import Stoa.Store.Auxiliary
import Mathlib.Data.List.Perm.Subperm

/-! # Five password codes in an hour

The row of an account keeps the seconds of the sends that were admitted and not given
back. It may forget one only when its hour is over, and that is so as long as no send
is written with an earlier second than those the row holds. -/

namespace Stoa.SendQuota

open RowStore
open PasswordCode (Library)

/-! ## What the calls have done -/

abbrev Entry := Commit Key Row Issue

section

variable (owner : String)

def eventsOf (t : Table Key Row) : List Event := (t.row (.events owner)).getD []

/-- The seconds that are stored. -/
def stamps (t : Table Key Row) : List ℕ := sendsOf (t.row (.quota owner))

/-- The commit brings the event. -/
def Made (event : Event) (e : Entry) : Prop := eventsOf owner e.after = event :: eventsOf owner e.before

instance (event : Event) (e : Entry) : Decidable (Made owner event e) :=
  inferInstanceAs (Decidable (_ = _))

/-- The sends that were admitted, by the call and its second. -/
def admissions (history : List Entry) : List (ℕ × ℕ) :=
  (history.filter (Made owner .admitted)).map fun e => (e.id, e.call.now)

/-- The calls whose send was given back. -/
def returns (history : List Entry) : List ℕ := (history.filter (Made owner .returned)).map Commit.id

def deliveries (history : List Entry) : List Entry := history.filter (Made owner .delivered)

/-- The sends that were admitted and not given back. -/
def unreleased (history : List Entry) : List (ℕ × ℕ) :=
  (admissions owner history).filter fun a => a.1 ∉ returns owner history

/-- Those of the last hour. -/
def liveSends (clock : ℕ) (history : List Entry) : List (ℕ × ℕ) :=
  (unreleased owner history).filter fun a => clock < a.2 + SEND_WINDOW_SECONDS

/-- The codes that were delivered in an hour. -/
def deliveredIn (start : ℕ) (history : List Entry) : List Entry :=
  (deliveries owner history).filter fun e => start ≤ e.time ∧ e.time < start + SEND_WINDOW_SECONDS

end

/-! ## The condition -/

/-- A send is written only with a second that is not earlier than those the row holds, a
code is delivered in the second in which it was asked for, and a row is removed only
while no call is under way. -/
structure InOrder (s s' : Run) : Prop where
  admitted : ∀ e, s'.history = e :: s.history → ∀ owner, Made owner .admitted e →
    ∀ stamp ∈ stamps owner s.table, stamp ≤ e.call.now
  delivered : ∀ e, s'.history = e :: s.history → ∀ owner, Made owner .delivered e → e.time = e.call.now
  removed : ∀ owner row, Deletes s s' owner row → ∀ i, s.running i = none

/-! ## Lists -/

/-- One entry of a list without repetition is taken out. -/
theorem perm_filter_ne {l : List (ℕ × ℕ)} (h : (l.map Prod.fst).Nodup) {i n : ℕ} (hmem : (i, n) ∈ l) :
    (l.map Prod.snd).Perm (n :: (l.filter fun a => a.1 ≠ i).map Prod.snd) := by
  induction l with
  | nil => cases hmem
  | cons a l ih =>
      obtain ⟨hnot, hrest⟩ := List.nodup_cons.mp h
      rcases List.mem_cons.mp hmem with rfl | hmem
      · have hall : l.filter (fun a => a.1 ≠ i) = l := by
          refine List.filter_eq_self.mpr fun b hb => decide_eq_true ?_
          intro heq
          exact hnot (List.mem_map.mpr ⟨b, hb, heq⟩)
        rw [List.filter_cons_of_neg (by simp), hall, List.map_cons]
      · have hne : a.1 ≠ i := by
          intro heq
          exact hnot (heq ▸ List.mem_map_of_mem (f := Prod.fst) hmem)
        rw [List.filter_cons_of_pos (by simpa using hne), List.map_cons, List.map_cons]
        exact ((ih hrest hmem).cons a.2).trans (List.Perm.swap n a.2 _)

theorem filter_not_mem_cons (l : List (ℕ × ℕ)) (i : ℕ) (r : List ℕ) :
    l.filter (fun a => a.1 ∉ i :: r) = (l.filter fun a => a.1 ∉ r).filter fun a => a.1 ≠ i := by
  rw [List.filter_filter]
  refine List.filter_congr fun a _ => ?_
  by_cases hi : a.1 = i <;> simp [hi]

/-! ## Commits and their events -/

section

variable {owner : String} {event event' : Event} {e : Entry} {history : List Entry}

theorem made_iff (h : Made owner event e) : Made owner event' e ↔ event' = event := by
  unfold Made at *
  rw [h]
  simp [eq_comm]

theorem not_made (h : eventsOf owner e.after = eventsOf owner e.before) : ¬ Made owner event e := by
  unfold Made
  rw [h]
  exact (List.cons_ne_self _ _).symm

theorem admissions_cons_of_made (h : Made owner .admitted e) :
    admissions owner (e :: history) = (e.id, e.call.now) :: admissions owner history := by
  simp [admissions, h]

theorem admissions_cons (h : ¬ Made owner .admitted e) :
    admissions owner (e :: history) = admissions owner history := by
  simp [admissions, h]

theorem returns_cons_of_made (h : Made owner .returned e) :
    returns owner (e :: history) = e.id :: returns owner history := by
  simp [returns, h]

theorem returns_cons (h : ¬ Made owner .returned e) : returns owner (e :: history) = returns owner history := by
  simp [returns, h]

theorem deliveries_cons_of_made (h : Made owner .delivered e) :
    deliveries owner (e :: history) = e :: deliveries owner history := by
  simp [deliveries, h]

theorem deliveries_cons (h : ¬ Made owner .delivered e) :
    deliveries owner (e :: history) = deliveries owner history := by
  simp [deliveries, h]

end

/-! ## The invariant -/

/-- How far a call has come, and the row that it has read. -/
inductive Stage where
  | early
  | reading (stored : Option QuotaRow)
  | admitted
  | releasing (stored : QuotaRow)
  | over

def Stage.isEarly : Stage → Prop
  | .early | .reading _ => True
  | _ => False

/-- The send is admitted, and nothing became of it yet. -/
def Stage.isOpen : Stage → Prop
  | .admitted | .releasing _ => True
  | _ => False

def Stage.row? : Stage → Option QuotaRow
  | .reading stored => stored
  | .releasing stored => some stored
  | _ => none

/-- What the row holds is what was admitted and not given back, as far as it is recent. -/
structure Balanced (owner : String) (w : View Key Row Issue) : Prop where
  length : (stamps owner w.table).length ≤ MAX_SENDS_PER_WINDOW
  version : ∀ row, w.table.row (.quota owner) = some row → 0 < row.version
  stamped : ∀ stamp ∈ stamps owner w.table, 0 < stamp ∧ stamp ≤ w.clock
  expires : ∀ row, w.table.row (.quota owner) = some row →
    ∀ stamp ∈ row.sends, stamp + SEND_WINDOW_SECONDS ≤ row.expiresAt
  upper : ∀ stamp, (stamps owner w.table).count stamp ≤ ((unreleased owner w.history).map Prod.snd).count stamp
  lower : ∀ stamp, w.clock < stamp + SEND_WINDOW_SECONDS →
    ((unreleased owner w.history).map Prod.snd).count stamp ≤ (stamps owner w.table).count stamp

/-- A call admits one send, and what is delivered was admitted and not given back. -/
structure Accounted (owner : String) (w : View Key Row Issue) : Prop where
  once : ((admissions owner w.history).map Prod.fst).Nodup
  positive : ∀ a ∈ admissions owner w.history, 0 < a.2 ∧ a.2 ≤ w.clock
  returned : ∀ i ∈ returns owner w.history, i ∈ (admissions owner w.history).map Prod.fst
  delivered : ∀ e ∈ deliveries owner w.history, (e.id, e.call.now) ∈ unreleased owner w.history
  deliveredOnce : ((deliveries owner w.history).map Commit.id).Nodup
  past : ∀ e ∈ deliveries owner w.history, e.time ≤ w.clock
  limit : (∀ e ∈ deliveries owner w.history, e.time = e.call.now) →
    ∀ start, (deliveredIn owner start w.history).length ≤ MAX_SENDS_PER_WINDOW

/-- What call `i` knows that has come to a stage, and has read a second from the clock. -/
structure Knows (owner : String) (w : View Key Row Issue) (i : ℕ) (x : Stage × ℕ) : Prop where
  moment : 0 < x.2 ∧ x.2 ≤ w.clock
  row : ∀ stored, x.1.row? = some stored →
    ∃ row, w.table.row (.quota owner) = some row ∧ (stored = row ∨ stored.version < row.version)
  early : x.1.isEarly → i ∉ (admissions owner w.history).map Prod.fst
  open_ : x.1.isOpen → (i, x.2) ∈ unreleased owner w.history ∧ i ∉ (deliveries owner w.history).map Commit.id

/-- What holds in every state of a run. -/
structure Sound (owner : String) (w : View Key Row Issue) (g : ℕ → Option (Stage × ℕ)) : Prop where
  balanced : Balanced owner w
  accounted : Accounted owner w
  calls : ∀ i x, g i = some x → Knows owner w i x

section

variable {owner : String} {w v : View Key Row Issue} {g : ℕ → Option (Stage × ℕ)} {i n : ℕ}

theorem calls_update {P : ℕ → Stage × ℕ → Prop} {x : Stage × ℕ} (hi : P i x)
    (h : ∀ j y, j ≠ i → g j = some y → P j y) : ∀ j y, Function.update g i (some x) j = some y → P j y := by
  intro j y hj
  by_cases hji : j = i
  · subst hji
    rw [Function.update_self] at hj
    cases hj
    exact hi
  · rw [Function.update_of_ne hji] at hj
    exact h j y hji hj

theorem Sound.returns (h : Sound owner w g) (i : ℕ) : Sound owner w (Function.update g i none) where
  balanced := h.balanced
  accounted := h.accounted
  calls j x hj := by
    by_cases hji : j = i
    · subst hji
      rw [Function.update_self] at hj
      cases hj
    · rw [Function.update_of_ne hji] at hj
      exact h.calls j x hj

/-- Nothing that matters has changed, but for the clock. -/
theorem Sound.same (h : Sound owner w g) (hquota : v.table.row (.quota owner) = w.table.row (.quota owner))
    (hadmissions : admissions owner v.history = admissions owner w.history)
    (hreturns : SendQuota.returns owner v.history = SendQuota.returns owner w.history)
    (hdeliveries : deliveries owner v.history = deliveries owner w.history) (hclock : w.clock ≤ v.clock) :
    Sound owner v g := by
  have hstamps : stamps owner v.table = stamps owner w.table := by rw [stamps, hquota, stamps]
  have hunreleased : unreleased owner v.history = unreleased owner w.history := by
    rw [unreleased, hadmissions, hreturns, unreleased]
  have hin : ∀ start, deliveredIn owner start v.history = deliveredIn owner start w.history := fun start => by
    rw [deliveredIn, hdeliveries, deliveredIn]
  obtain ⟨hbalanced, haccounted, hcalls⟩ := h
  refine ⟨⟨?_, ?_, ?_, ?_, ?_, ?_⟩, ⟨?_, ?_, ?_, ?_, ?_, ?_, ?_⟩, fun j x hj => ?_⟩
  · rw [hstamps]
    exact hbalanced.length
  · rw [hquota]
    exact hbalanced.version
  · rw [hstamps]
    exact fun stamp hmem => ⟨(hbalanced.stamped stamp hmem).1, (hbalanced.stamped stamp hmem).2.trans hclock⟩
  · rw [hquota]
    exact hbalanced.expires
  · rw [hstamps, hunreleased]
    exact hbalanced.upper
  · rw [hstamps, hunreleased]
    exact fun stamp hlt => hbalanced.lower stamp (hclock.trans_lt hlt)
  · rw [hadmissions]
    exact haccounted.once
  · rw [hadmissions]
    exact fun a ha => ⟨(haccounted.positive a ha).1, (haccounted.positive a ha).2.trans hclock⟩
  · rw [hreturns, hadmissions]
    exact haccounted.returned
  · rw [hdeliveries, hunreleased]
    exact haccounted.delivered
  · rw [hdeliveries]
    exact haccounted.deliveredOnce
  · rw [hdeliveries]
    exact fun e he => (haccounted.past e he).trans hclock
  · rw [hdeliveries]
    exact fun hprompt start => by
      rw [hin]
      exact haccounted.limit hprompt start
  · obtain ⟨hmoment, hrow, hearly, hopen⟩ := hcalls j x hj
    refine ⟨⟨hmoment.1, hmoment.2.trans hclock⟩, ?_, ?_, ?_⟩
    · rw [hquota]
      exact hrow
    · rw [hadmissions]
      exact hearly
    · rw [hunreleased, hdeliveries]
      exact hopen

/-- The commit of a call that leaves the account alone. -/
theorem Sound.frame (h : Sound owner w g) (c : Issue) {ops : List (Write Key Row)}
    (hquota : (w.table.apply ops).row (.quota owner) = w.table.row (.quota owner))
    (hevents : (w.table.apply ops).row (.events owner) = w.table.row (.events owner)) :
    Sound owner (w.commit i c ops) g := by
  have hnot : ∀ event, ¬ Made owner event ⟨i, c, w.clock, w.table, w.table.apply ops⟩ := fun event =>
    not_made (by rw [eventsOf, hevents, eventsOf])
  exact h.same hquota (admissions_cons (hnot _)) (returns_cons (hnot _)) (deliveries_cons (hnot _)) le_rfl

/-- A call goes on. -/
theorem Sound.goesOn (h : Sound owner w g) {x y : Stage} (hi : g i = some (x, n))
    (hrow : ∀ stored, y.row? = some stored →
      ∃ row, w.table.row (.quota owner) = some row ∧ (stored = row ∨ stored.version < row.version))
    (hearly : y.isEarly → x.isEarly) (hopen : y.isOpen → x.isOpen) :
    Sound owner w (Function.update g i (some (y, n))) := by
  obtain ⟨hmoment, -, hwasEarly, hwasOpen⟩ := h.calls i _ hi
  refine ⟨h.balanced, h.accounted, calls_update ⟨hmoment, hrow, ?_, ?_⟩ fun j z _ hj => h.calls j z hj⟩
  · exact fun hy => hwasEarly (hearly hy)
  · exact fun hy => hwasOpen (hopen hy)

/-! ### Admission -/

theorem count_recent (moment : ℕ) (l : List ℕ) {stamp : ℕ} (hpos : 0 < stamp)
    (hlt : moment < stamp + SEND_WINDOW_SECONDS) : (l.filter (isRecent moment)).count stamp = l.count stamp :=
  List.count_filter (decide_eq_true ⟨hpos, hlt⟩)

theorem unreleased_admitted (h : Accounted owner w) {e : Entry} (hmade : Made owner .admitted e)
    (hearly : e.id ∉ (admissions owner w.history).map Prod.fst) :
    unreleased owner (e :: w.history) = (e.id, e.call.now) :: unreleased owner w.history := by
  have hnot : e.id ∉ SendQuota.returns owner w.history := fun hmem => hearly (h.returned _ hmem)
  have hreturned : ¬ Made owner .returned e := by
    rw [made_iff hmade]
    decide
  unfold unreleased
  rw [admissions_cons_of_made hmade, returns_cons hreturned]
  simp [hnot]

theorem mem_admissions_of_unreleased {a : ℕ × ℕ} {history : List Entry} (h : a ∈ unreleased owner history) :
    a ∈ admissions owner history :=
  (List.mem_filter.mp h).1

/-- A send is written to the row that the call has read. -/
theorem Sound.admit (h : Sound owner w g) {c : Issue} {ops : List (Write Key Row)} {stored : Option QuotaRow}
    {version : ℕ} (hi : g i = some (.reading stored, c.now))
    (hread : w.table.row (.quota owner) = stored) (hversion : versionOf stored < version)
    (hquota : (w.table.apply ops).row (.quota owner) =
      some ⟨recentSends c.now stored ++ [c.now], version, c.now + SEND_WINDOW_SECONDS⟩)
    (hevents : eventsOf owner (w.table.apply ops) = .admitted :: eventsOf owner w.table)
    (hroom : (recentSends c.now stored).length < MAX_SENDS_PER_WINDOW)
    (horder : ∀ stamp ∈ stamps owner w.table, stamp ≤ c.now) :
    Sound owner (w.commit i c ops) (Function.update g i (some (.admitted, c.now))) := by
  obtain ⟨hbalanced, haccounted, hcalls⟩ := h
  obtain ⟨⟨hpos, hclock⟩, -, hearly, -⟩ := hcalls i _ hi
  have hnew : i ∉ (admissions owner w.history).map Prod.fst := hearly trivial
  have hmade : Made owner .admitted ⟨i, c, w.clock, w.table, w.table.apply ops⟩ := hevents
  have hother : ∀ event, event ≠ .admitted → ¬ Made owner event ⟨i, c, w.clock, w.table, w.table.apply ops⟩ :=
    fun event hne hthis => hne ((made_iff hmade).mp hthis)
  have hadmissions : admissions owner (w.commit i c ops).history = (i, c.now) :: admissions owner w.history :=
    admissions_cons_of_made hmade
  have hreturns : SendQuota.returns owner (w.commit i c ops).history = SendQuota.returns owner w.history :=
    returns_cons (hother _ (by decide))
  have hdeliveries : deliveries owner (w.commit i c ops).history = deliveries owner w.history :=
    deliveries_cons (hother _ (by decide))
  have hunreleased : unreleased owner (w.commit i c ops).history = (i, c.now) :: unreleased owner w.history :=
    unreleased_admitted haccounted hmade hnew
  have hstamps : stamps owner (w.commit i c ops).table = recentSends c.now stored ++ [c.now] := by
    rw [stamps, View.table_commit, hquota]
    rfl
  have hold : stamps owner w.table = sendsOf stored := by rw [stamps, hread]
  have hrecent : ∀ stamp ∈ recentSends c.now stored, stamp ∈ stamps owner w.table := fun stamp hmem => by
    rw [hold]
    exact (List.mem_filter.mp hmem).1
  have hin : ∀ start, deliveredIn owner start (w.commit i c ops).history = deliveredIn owner start w.history :=
    fun start => by rw [deliveredIn, hdeliveries, deliveredIn]
  have hkept : ∀ stamp, (stamps owner (w.commit i c ops).table).count stamp =
      (recentSends c.now stored).count stamp + [c.now].count stamp := fun stamp => by
    rw [hstamps, List.count_append]
  have hadded : ∀ stamp, ((unreleased owner (w.commit i c ops).history).map Prod.snd).count stamp =
      ((unreleased owner w.history).map Prod.snd).count stamp + [c.now].count stamp := fun stamp => by
    rw [hunreleased]
    simp [List.count_cons]
  refine ⟨⟨?_, ?_, ?_, ?_, ?_, ?_⟩, ⟨?_, ?_, ?_, ?_, ?_, ?_, ?_⟩, calls_update ⟨⟨hpos, hclock⟩, ?_, ?_, ?_⟩ ?_⟩
  · rw [hstamps, List.length_append, List.length_singleton]
    exact hroom
  · intro row hrow
    rw [View.table_commit, hquota] at hrow
    cases hrow
    exact Nat.zero_lt_of_lt hversion
  · rw [hstamps]
    intro stamp hmem
    rcases List.mem_append.mp hmem with hmem | hmem
    · exact hbalanced.stamped stamp (hrecent stamp hmem)
    · rw [List.mem_singleton.mp hmem]
      exact ⟨hpos, hclock⟩
  · intro row hrow stamp hmem
    rw [View.table_commit, hquota] at hrow
    cases hrow
    refine Nat.add_le_add_right ?_ _
    rcases List.mem_append.mp hmem with hmem | hmem
    · exact horder stamp (hrecent stamp hmem)
    · exact (List.mem_singleton.mp hmem).le
  · intro stamp
    have hle : (recentSends c.now stored).count stamp ≤ (stamps owner w.table).count stamp := by
      rw [hold]
      exact List.Sublist.count_le stamp List.filter_sublist
    have hupper := hbalanced.upper stamp
    rw [hkept, hadded]
    omega
  · intro stamp hlt
    rw [View.clock_commit] at hlt
    have hlower := hbalanced.lower stamp hlt
    rw [hkept, hadded]
    by_cases hzero : stamp = 0
    · subst hzero
      have hnone : ((unreleased owner w.history).map Prod.snd).count 0 = 0 := by
        refine List.count_eq_zero.mpr fun hmem => ?_
        obtain ⟨a, ha, hzero⟩ := List.mem_map.mp hmem
        exact absurd (haccounted.positive a (mem_admissions_of_unreleased ha)).1 (by omega)
      omega
    · have hcount : (recentSends c.now stored).count stamp = (stamps owner w.table).count stamp := by
        rw [hold]
        exact count_recent c.now _ (Nat.pos_of_ne_zero hzero) (hclock.trans_lt hlt)
      omega
  · rw [hadmissions, List.map_cons]
    exact List.nodup_cons.mpr ⟨hnew, haccounted.once⟩
  · rw [hadmissions]
    exact List.forall_mem_cons.mpr ⟨⟨hpos, hclock⟩, haccounted.positive⟩
  · rw [hreturns, hadmissions]
    exact fun j hj => List.mem_cons_of_mem _ (haccounted.returned j hj)
  · rw [hdeliveries, hunreleased]
    exact fun e he => List.mem_cons_of_mem _ (haccounted.delivered e he)
  · rw [hdeliveries]
    exact haccounted.deliveredOnce
  · rw [hdeliveries]
    exact haccounted.past
  · rw [hdeliveries]
    exact fun hprompt start => by
      rw [hin]
      exact haccounted.limit hprompt start
  · rintro stored ⟨⟩
  · rintro ⟨⟩
  · intro _
    rw [hunreleased, hdeliveries]
    refine ⟨List.mem_cons_self, fun hmem => ?_⟩
    obtain ⟨e, he, hid⟩ := List.mem_map.mp hmem
    exact hnew (List.mem_map.mpr ⟨_, mem_admissions_of_unreleased (haccounted.delivered e he), hid⟩)
  · intro j x hji hj
    obtain ⟨hmoment, hrow, hwasEarly, hwasOpen⟩ := hcalls j x hj
    refine ⟨hmoment, fun known hknown => ?_, fun hx => ?_, fun hx => ?_⟩
    · obtain ⟨row, hthis, hnewer⟩ := hrow known hknown
      refine ⟨_, hquota, .inr ?_⟩
      rw [hread] at hthis
      rw [hthis] at hversion
      exact lt_of_le_of_lt (hnewer.elim (fun heq => heq ▸ le_rfl) le_of_lt) hversion
    · rw [hadmissions, List.map_cons, List.mem_cons, not_or]
      exact ⟨hji, hwasEarly hx⟩
    · rw [hunreleased, hdeliveries]
      exact ⟨List.mem_cons_of_mem _ (hwasOpen hx).1, (hwasOpen hx).2⟩

/-! ### Delivery -/

/-- The row holds the sends of the last hour. -/
theorem Balanced.live_length (h : Balanced owner w) :
    (liveSends owner w.clock w.history).length =
      ((stamps owner w.table).filter fun stamp => w.clock < stamp + SEND_WINDOW_SECONDS).length := by
  have hperm : (((unreleased owner w.history).map Prod.snd).filter fun stamp =>
      w.clock < stamp + SEND_WINDOW_SECONDS).Perm
        ((stamps owner w.table).filter fun stamp => w.clock < stamp + SEND_WINDOW_SECONDS) := by
    refine List.perm_iff_count.mpr fun stamp => ?_
    by_cases hlive : w.clock < stamp + SEND_WINDOW_SECONDS
    · have hall : ∀ l : List ℕ, (l.filter fun stamp => w.clock < stamp + SEND_WINDOW_SECONDS).count stamp =
          l.count stamp := fun l => List.count_filter (by simpa using hlive)
      rw [hall, hall]
      exact (h.lower stamp hlive).antisymm (h.upper stamp)
    · have hnone : ∀ l : List ℕ, (l.filter fun stamp => w.clock < stamp + SEND_WINDOW_SECONDS).count stamp = 0 :=
        fun l => List.count_eq_zero.mpr fun hmem => hlive (of_decide_eq_true (List.mem_filter.mp hmem).2)
      rw [hnone, hnone]
  have hlength := hperm.length_eq
  rwa [List.filter_map, List.length_map] at hlength

theorem nodup_filter_map {l : List Entry} (h : (l.map Commit.id).Nodup) (p : Entry → Bool) :
    ((l.filter p).map fun e => (e.id, e.call.now)).Nodup := by
  refine List.Nodup.of_map Prod.fst ?_
  rw [List.map_map]
  exact h.sublist (List.filter_sublist.map _)

/-- A code is delivered within the hour of its own second. -/
theorem Sound.deliver (h : Sound owner w g) {c : Issue} {ops : List (Write Key Row)}
    (hi : g i = some (.admitted, c.now))
    (hquota : (w.table.apply ops).row (.quota owner) = w.table.row (.quota owner))
    (hevents : eventsOf owner (w.table.apply ops) = .delivered :: eventsOf owner w.table) :
    Sound owner (w.commit i c ops) (Function.update g i (some (.over, c.now))) := by
  obtain ⟨hbalanced, haccounted, hcalls⟩ := h
  obtain ⟨hmoment, -, -, hopen⟩ := hcalls i _ hi
  obtain ⟨hmem, hfirst⟩ := hopen trivial
  have hmade : Made owner .delivered ⟨i, c, w.clock, w.table, w.table.apply ops⟩ := hevents
  have hother : ∀ event, event ≠ .delivered → ¬ Made owner event ⟨i, c, w.clock, w.table, w.table.apply ops⟩ :=
    fun event hne hthis => hne ((made_iff hmade).mp hthis)
  have hadmissions : admissions owner (w.commit i c ops).history = admissions owner w.history :=
    admissions_cons (hother _ (by decide))
  have hreturns : SendQuota.returns owner (w.commit i c ops).history = SendQuota.returns owner w.history :=
    returns_cons (hother _ (by decide))
  have hdeliveries : deliveries owner (w.commit i c ops).history =
      ⟨i, c, w.clock, w.table, w.table.apply ops⟩ :: deliveries owner w.history :=
    deliveries_cons_of_made hmade
  have hunreleased : unreleased owner (w.commit i c ops).history = unreleased owner w.history := by
    rw [unreleased, hadmissions, hreturns, unreleased]
  have hstamps : stamps owner (w.commit i c ops).table = stamps owner w.table := by
    rw [stamps, View.table_commit, hquota, stamps]
  have hdelivered : ∀ e ∈ deliveries owner (w.commit i c ops).history,
      (e.id, e.call.now) ∈ unreleased owner w.history := by
    rw [hdeliveries]
    exact List.forall_mem_cons.mpr ⟨hmem, haccounted.delivered⟩
  have honce : ((deliveries owner (w.commit i c ops).history).map Commit.id).Nodup := by
    rw [hdeliveries, List.map_cons]
    exact List.nodup_cons.mpr ⟨hfirst, haccounted.deliveredOnce⟩
  have hpast : ∀ e ∈ deliveries owner (w.commit i c ops).history, e.time ≤ w.clock := by
    rw [hdeliveries]
    exact List.forall_mem_cons.mpr ⟨le_rfl, haccounted.past⟩
  refine ⟨⟨?_, ?_, ?_, ?_, ?_, ?_⟩, ⟨?_, ?_, ?_, ?_, honce, hpast, fun hprompt start => ?_⟩,
    calls_update ⟨hmoment, ?_, ?_, ?_⟩ ?_⟩
  · rw [hstamps]
    exact hbalanced.length
  · rw [View.table_commit, hquota]
    exact hbalanced.version
  · rw [hstamps]
    exact hbalanced.stamped
  · rw [View.table_commit, hquota]
    exact hbalanced.expires
  · rw [hstamps, hunreleased]
    exact hbalanced.upper
  · rw [hstamps, hunreleased]
    exact hbalanced.lower
  · rw [hadmissions]
    exact haccounted.once
  · rw [hadmissions]
    exact haccounted.positive
  · rw [hreturns, hadmissions]
    exact haccounted.returned
  · rw [hunreleased]
    exact hdelivered
  · by_cases hwindow : start ≤ w.clock ∧ w.clock < start + SEND_WINDOW_SECONDS
    · -- The window ends with this delivery, and all that it holds is recent.
      have hsub : ((deliveredIn owner start (w.commit i c ops).history).map fun e => (e.id, e.call.now)).Subperm
          (liveSends owner w.clock w.history) := by
        refine (nodup_filter_map honce _).subperm fun a ha => ?_
        obtain ⟨e, he, rfl⟩ := List.mem_map.mp ha
        obtain ⟨he, hstart⟩ := List.mem_filter.mp he
        have htime := hprompt e he
        obtain ⟨hle, -⟩ := of_decide_eq_true hstart
        refine List.mem_filter.mpr ⟨hdelivered e he, decide_eq_true ?_⟩
        dsimp only
        omega
      have hlength := hsub.length_le
      rw [List.length_map] at hlength
      rw [hbalanced.live_length] at hlength
      exact hlength.trans ((List.length_filter_le _ _).trans hbalanced.length)
    · have hsame : deliveredIn owner start (w.commit i c ops).history = deliveredIn owner start w.history := by
        rw [deliveredIn, hdeliveries, List.filter_cons_of_neg (by simpa using hwindow), deliveredIn]
      rw [hsame]
      refine haccounted.limit (fun e he => hprompt e ?_) start
      rw [hdeliveries]
      exact List.mem_cons_of_mem _ he
  · rintro stored ⟨⟩
  · rintro ⟨⟩
  · rintro ⟨⟩
  · intro j x hji hj
    obtain ⟨hmoment, hrow, hwasEarly, hwasOpen⟩ := hcalls j x hj
    refine ⟨hmoment, ?_, ?_, fun hx => ?_⟩
    · rw [View.table_commit, hquota]
      exact hrow
    · rw [hadmissions]
      exact hwasEarly
    · rw [hunreleased, hdeliveries, List.map_cons, List.mem_cons, not_or]
      exact ⟨(hwasOpen hx).1, hji, (hwasOpen hx).2⟩

/-! ### Release -/

/-- The send of the call, and no other, is taken out of the row. -/
theorem Sound.release (h : Sound owner w g) {c : Issue} {ops : List (Write Key Row)} {stored : QuotaRow}
    (hi : g i = some (.releasing stored, c.now)) (hread : w.table.row (.quota owner) = some stored)
    (hquota : (w.table.apply ops).row (.quota owner) =
      some { stored with sends := stored.sends.erase c.now, version := stored.version + 1 })
    (hevents : eventsOf owner (w.table.apply ops) = .returned :: eventsOf owner w.table) :
    Sound owner (w.commit i c ops) (Function.update g i (some (.over, c.now))) := by
  obtain ⟨hbalanced, haccounted, hcalls⟩ := h
  obtain ⟨hmoment, -, -, hopen⟩ := hcalls i _ hi
  obtain ⟨hmem, hfirst⟩ := hopen trivial
  have hmade : Made owner .returned ⟨i, c, w.clock, w.table, w.table.apply ops⟩ := hevents
  have hother : ∀ event, event ≠ .returned → ¬ Made owner event ⟨i, c, w.clock, w.table, w.table.apply ops⟩ :=
    fun event hne hthis => hne ((made_iff hmade).mp hthis)
  have hadmissions : admissions owner (w.commit i c ops).history = admissions owner w.history :=
    admissions_cons (hother _ (by decide))
  have hreturns : SendQuota.returns owner (w.commit i c ops).history = i :: SendQuota.returns owner w.history :=
    returns_cons_of_made hmade
  have hdeliveries : deliveries owner (w.commit i c ops).history = deliveries owner w.history :=
    deliveries_cons (hother _ (by decide))
  have hunreleased : unreleased owner (w.commit i c ops).history =
      (unreleased owner w.history).filter fun a => a.1 ≠ i := by
    rw [unreleased, hadmissions, hreturns, filter_not_mem_cons, unreleased]
  have hcount : ∀ stamp, ((unreleased owner w.history).map Prod.snd).count stamp =
      ((unreleased owner (w.commit i c ops).history).map Prod.snd).count stamp + [c.now].count stamp := fun stamp => by
    have hnodup : ((unreleased owner w.history).map Prod.fst).Nodup :=
      haccounted.once.sublist (List.filter_sublist.map _)
    rw [hunreleased, (perm_filter_ne hnodup hmem).count_eq]
    simp [List.count_cons]
  have hold : stamps owner w.table = stored.sends := by
    rw [stamps, hread]
    rfl
  have hstamps : stamps owner (w.commit i c ops).table = (stamps owner w.table).erase c.now := by
    rw [stamps, View.table_commit, hquota, hold]
    rfl
  have hsubset : ∀ stamp ∈ (stamps owner w.table).erase c.now, stamp ∈ stamps owner w.table :=
    fun stamp => List.mem_of_mem_erase
  have hin : ∀ start, deliveredIn owner start (w.commit i c ops).history = deliveredIn owner start w.history :=
    fun start => by rw [deliveredIn, hdeliveries, deliveredIn]
  have herase : ∀ stamp, (stamps owner (w.commit i c ops).table).count stamp =
      (stamps owner w.table).count stamp - [c.now].count stamp := fun stamp => by
    rw [hstamps, List.count_erase]
    simp [List.count_cons]
  refine ⟨⟨?_, ?_, ?_, ?_, ?_, ?_⟩, ⟨?_, ?_, ?_, ?_, ?_, ?_, ?_⟩, calls_update ⟨hmoment, ?_, ?_, ?_⟩ ?_⟩
  · rw [hstamps]
    exact (List.length_erase_le ..).trans hbalanced.length
  · intro row hrow
    rw [View.table_commit, hquota] at hrow
    cases hrow
    exact Nat.succ_pos _
  · rw [hstamps]
    exact fun stamp hstamp => hbalanced.stamped stamp (hsubset stamp hstamp)
  · intro row hrow stamp hstamp
    rw [View.table_commit, hquota] at hrow
    cases hrow
    exact hbalanced.expires stored hread stamp (List.mem_of_mem_erase hstamp)
  · intro stamp
    have hupper := hbalanced.upper stamp
    have hsum := hcount stamp
    rw [herase]
    omega
  · intro stamp hlt
    have hlower := hbalanced.lower stamp hlt
    have hsum := hcount stamp
    rw [herase]
    omega
  · rw [hadmissions]
    exact haccounted.once
  · rw [hadmissions]
    exact haccounted.positive
  · rw [hreturns, hadmissions]
    exact List.forall_mem_cons.mpr
      ⟨List.mem_map_of_mem (mem_admissions_of_unreleased hmem), haccounted.returned⟩
  · rw [hdeliveries, hunreleased]
    refine fun e he => List.mem_filter.mpr ⟨haccounted.delivered e he, decide_eq_true ?_⟩
    exact fun heq => hfirst (List.mem_map.mpr ⟨e, he, heq⟩)
  · rw [hdeliveries]
    exact haccounted.deliveredOnce
  · rw [hdeliveries]
    exact haccounted.past
  · rw [hdeliveries]
    exact fun hprompt start => by
      rw [hin]
      exact haccounted.limit hprompt start
  · rintro stored ⟨⟩
  · rintro ⟨⟩
  · rintro ⟨⟩
  · intro j x hji hj
    obtain ⟨hmoment, hrow, hwasEarly, hwasOpen⟩ := hcalls j x hj
    refine ⟨hmoment, fun known hknown => ?_, ?_, fun hx => ?_⟩
    · obtain ⟨row, hthis, hnewer⟩ := hrow known hknown
      refine ⟨_, hquota, .inr (Nat.lt_succ_of_le ?_)⟩
      rw [hread] at hthis
      cases hthis
      exact hnewer.elim (fun heq => heq ▸ le_rfl) le_of_lt
    · rw [hadmissions]
      exact hwasEarly
    · rw [hunreleased, hdeliveries]
      exact ⟨List.mem_filter.mpr ⟨(hwasOpen hx).1, decide_eq_true hji⟩, (hwasOpen hx).2⟩

/-! ### Removal -/

/-- The row goes when nothing that it holds is recent, and nobody has read it. -/
theorem Sound.remove (h : Sound owner w g) {t : Table Key Row} (hidle : ∀ i, g i = none)
    (hexpired : ∀ row, w.table.row (.quota owner) = some row → row.expiresAt < w.clock)
    (hquota : t.row (.quota owner) = none) : Sound owner { w with table := t } g := by
  obtain ⟨hbalanced, haccounted, hcalls⟩ := h
  have hstamps : stamps owner t = [] := by
    rw [stamps, hquota]
    rfl
  refine ⟨⟨?_, ?_, ?_, ?_, ?_, ?_⟩, ⟨haccounted.once, haccounted.positive, haccounted.returned,
    haccounted.delivered, haccounted.deliveredOnce, haccounted.past, haccounted.limit⟩, fun j x hj => ?_⟩
  · rw [hstamps]
    exact Nat.zero_le _
  · intro row hrow
    rw [hquota] at hrow
    cases hrow
  · rw [hstamps]
    exact fun stamp hmem => absurd hmem List.not_mem_nil
  · intro row hrow
    rw [hquota] at hrow
    cases hrow
  · rw [hstamps]
    exact fun stamp => Nat.zero_le _
  · intro stamp hlt
    have hlower := hbalanced.lower stamp (show w.clock < _ from hlt)
    have hnone : (stamps owner w.table).count stamp = 0 := by
      refine List.count_eq_zero.mpr fun hmem => ?_
      cases hrow : w.table.row (.quota owner) with
      | none =>
          rw [stamps, hrow] at hmem
          cases hmem
      | some row =>
          rw [stamps, hrow] at hmem
          have hexpires := hbalanced.expires row hrow stamp hmem
          have hpast := hexpired row hrow
          change w.clock < _ at hlt
          omega
    rw [hnone] at hlower
    exact hlower.trans (Nat.zero_le _)
  · rw [hidle j] at hj
    cases hj

end

/-! ## What a call does -/

/-- What the condition says of the transaction of a call. -/
def Ordered (r : Issue) (ops : List (Write Key Row)) (t : Table Key Row) : Prop :=
  ∀ owner, eventsOf owner (t.apply ops) = .admitted :: eventsOf owner t → ∀ stamp ∈ stamps owner t, stamp ≤ r.now

/-- The key belongs to another account. -/
def Foreign (owner : String) (k : Key) : Prop := k ≠ .quota owner ∧ k ≠ .events owner

section

variable {owner : String} {t : Table Key Row} {moment : ℕ} {stored : Option QuotaRow}

/-- A send is admitted to the row that was read, and to no later one. -/
theorem admitted_to_read (hknown : ∀ known, stored = some known →
      ∃ row, t.row (.quota owner) = some row ∧ (known = row ∨ known.version < row.version))
    (ha : t.Admits (admits owner moment stored)) :
    t.row (.quota owner) = stored ∧ ∃ version, versionOf stored < version ∧
      (t.apply (admits owner moment stored)).row (.quota owner) =
        some ⟨recentSends moment stored ++ [moment], version, moment + SEND_WINDOW_SECONDS⟩ := by
  by_cases hzero : versionOf stored = 0
  · have hnew : admits owner moment stored =
        [.put (.quota owner) ⟨recentSends moment stored ++ [moment], 1, moment + SEND_WINDOW_SECONDS⟩ Option.isNone,
          records owner .admitted] := by
      simp only [admits, hzero, if_true]
    rw [hnew] at ha ⊢
    have hnone : t.row (.quota owner) = none := Option.isNone_iff_eq_none.mp (ha.2 _ List.mem_cons_self)
    have happly := t.row_apply_of_mem ha.1 List.mem_cons_self
    cases stored with
    | none => exact ⟨hnone, 1, Nat.one_pos, happly⟩
    | some known =>
        obtain ⟨row, hrow, -⟩ := hknown known rfl
        rw [hnone] at hrow
        cases hrow
  · cases stored with
    | none => exact absurd rfl hzero
    | some known =>
        obtain ⟨row, hrow, hnewer⟩ := hknown known rfl
        have hnext : admits owner moment (some known) =
            [.modify (.quota owner) (fun row : QuotaRow => { row with
                sends := recentSends moment (some known) ++ [moment]
                version := known.version + 1
                expiresAt := moment + SEND_WINDOW_SECONDS })
              fun row : QuotaRow => row.version = known.version,
              records owner .admitted] := by
          simp only [admits, hzero, if_false]
          rfl
        rw [hnext] at ha ⊢
        have hcondition := ha.2 _ List.mem_cons_self
        have happly := t.row_apply_of_mem ha.1 List.mem_cons_self
        simp only [Write.modify, hrow] at hcondition happly
        have hversion : row.version = known.version := of_decide_eq_true hcondition
        have heq : known = row := hnewer.resolve_right fun hlt => absurd hversion hlt.ne'
        subst heq
        exact ⟨hrow, known.version + 1, Nat.lt_succ_self _, happly⟩

theorem returned_to_read {known : QuotaRow}
    (hknown : ∃ row, t.row (.quota owner) = some row ∧ (known = row ∨ known.version < row.version))
    (ha : t.Admits (releases owner moment (some known))) :
    t.row (.quota owner) = some known ∧
      (t.apply (releases owner moment (some known))).row (.quota owner) =
        some { known with sends := known.sends.erase moment, version := known.version + 1 } := by
  obtain ⟨row, hrow, hnewer⟩ := hknown
  have hcondition := ha.2 _ List.mem_cons_self
  have happly := t.row_apply_of_mem ha.1 List.mem_cons_self
  simp only [Write.modify, hrow] at hcondition happly
  have hversion : row.version = known.version := of_decide_eq_true hcondition
  have heq : known = row := hnewer.resolve_right fun hlt => absurd hversion hlt.ne'
  subst heq
  exact ⟨hrow, happly⟩

theorem eventsOf_apply {event : Event} {ops : List (Write Key Row)} (hkeys : (ops.map Write.key).Nodup)
    (hmem : records owner event ∈ ops) : eventsOf owner (t.apply ops) = event :: eventsOf owner t := by
  have hrow := t.row_apply_of_mem hkeys hmem
  change (t.apply ops).row (.events owner) = some _ at hrow
  rw [eventsOf, hrow]
  rfl

end

section

variable {owner : String} {F : Access Key Row} {i : ℕ} {r : Issue}

theorem keeps_admitSend {Cond : Program Key Row (Except Raised Unit) → Table Key Row → Prop}
    {Q : Except Raised Unit → Stage × ℕ → Prop} (hF : ¬ F.responseLost)
    (hcond : ∀ ops next t, Cond (.transact ops next) t → Ordered r ops t)
    (hok : Q (.ok ()) (.admitted, r.now)) (herror : ∀ e x, Q (.error e) x) (attempts : ℕ) {x : Stage}
    (hx : x.isEarly) :
    (admitSend r owner attempts).run.Keeps F (Sound owner) Cond i r Q (x, r.now) := by
  induction attempts generalizing x with
  | zero => exact herror _ _
  | succ attempts ih =>
      refine Handler.keeps_get_bind_learn (fun w g hg hi => ⟨(.reading (w.table.row (.quota owner)), r.now), ?_, ?_⟩)
        (herror _ _)
      · exact hg.goesOn hi (fun stored hstored => ⟨stored, hstored, .inl rfl⟩) (fun _ => hx) False.elim
      · generalize w.table.row (.quota owner) = stored
        split
        · exact herror _ _
        · rename_i hroom
          split
          · exact herror _ _
          · intro w g hg hi
            refine ⟨fun _ => .same hg hi (ih trivial), fun ha hc => ⟨?_, fun hlost => absurd hlost hF⟩⟩
            obtain ⟨hread, version, hversion, hquota⟩ := admitted_to_read (hg.calls i _ hi).row ha
            have hevents := eventsOf_apply (t := w.table) ha.1 (List.mem_cons_of_mem _ (List.mem_singleton_self _))
            exact ⟨(.admitted, r.now), hg.admit hi hread hversion hquota hevents (not_le.mp hroom)
              (hcond _ _ _ hc owner hevents), hok⟩

theorem keeps_releaseSend {Cond : Program Key Row (Except Raised Unit) → Table Key Row → Prop}
    {Q : Except Raised Unit → Stage × ℕ → Prop} (hF : ¬ F.responseLost) (hQ : ∀ result x, Q result x)
    (attempts : ℕ) {x : Stage} (hx : x.isOpen) :
    (releaseSend r owner attempts).run.Keeps F (Sound owner) Cond i r Q (x, r.now) := by
  induction attempts generalizing x with
  | zero => exact hQ _ _
  | succ attempts ih =>
      refine Handler.keeps_get_bind_learn (fun w g hg hi => ?_) (hQ _ _)
      cases hrow : w.table.row (.quota owner) with
      | none => exact .same hg hi (hQ _ _)
      | some stored =>
          refine ⟨(.releasing stored, r.now), hg.goesOn hi ?_ False.elim fun _ => hx, ?_⟩
          · rintro _ ⟨⟩
            exact ⟨stored, hrow, .inl rfl⟩
          split
          · exact hQ _ _
          · split
            · exact hQ _ _
            · intro w g hg hi
              refine ⟨fun _ => .same hg hi (ih trivial), fun ha hc => ⟨?_, fun hlost => absurd hlost hF⟩⟩
              obtain ⟨hread, hquota⟩ := returned_to_read ((hg.calls i _ hi).row _ rfl) ha
              have hevents := eventsOf_apply (t := w.table) ha.1 (List.mem_cons_of_mem _ (List.mem_singleton_self _))
              exact ⟨(.over, r.now), hg.release hi hread hquota hevents, hQ _ _⟩

/-- Only the rows of the account are written. -/
def About (o : String) (ops : List (Write Key Row)) : Prop :=
  ∀ w ∈ ops, w.key = .quota o ∨ w.key = .code o ∨ w.key = .events o

theorem submits_admitSend (o : String) (attempts : ℕ) : (admitSend r o attempts).run.Submits (About o) := by
  induction attempts with
  | zero => trivial
  | succ attempts ih =>
      refine Handler.submits_bind Handler.submits_get fun stored => ?_
      split
      · trivial
      · split
        · trivial
        · refine Handler.submits_submit_bind (List.forall_mem_cons.mpr ⟨?_, List.forall_mem_singleton.mpr ?_⟩) fun done => ?_
          · split <;> exact .inl rfl
          · exact .inr (.inr rfl)
          · cases done with
            | false => exact ih
            | true => trivial

theorem submits_releaseSend (o : String) (attempts : ℕ) : (releaseSend r o attempts).run.Submits (About o) := by
  induction attempts with
  | zero => trivial
  | succ attempts ih =>
      refine Handler.submits_bind Handler.submits_get fun stored => ?_
      split
      · trivial
      · split
        · trivial
        · refine Handler.submits_submit_bind (List.forall_mem_cons.mpr ⟨?_, List.forall_mem_singleton.mpr ?_⟩) fun done => ?_
          · exact .inl rfl
          · exact .inr (.inr rfl)
          · cases done with
            | false => exact ih
            | true => trivial

theorem submits_storeCode (lib : Library) (o : String) :
    (storeCode lib r o).run.Submits fun ops => ∀ w ∈ ops, w.key = .code o := by
  unfold storeCode
  split
  · trivial
  · exact Handler.submits_submit_bind (List.forall_mem_singleton.mpr rfl) fun _ => trivial

/-- A call writes to no other account. -/
theorem submits_issue (lib : Library) (h : requiredUserId r.userId ≠ .ok owner) :
    (issue lib r).run.Submits fun ops => ∀ w ∈ ops, Foreign owner w.key := by
  have habout : ∀ o, requiredUserId r.userId = .ok o → ∀ ops, About o ops → ∀ w ∈ ops, Foreign owner w.key := by
    intro o ho ops hops w hw
    have hne : o ≠ owner := fun heq => h (heq ▸ ho)
    rcases hops w hw with hkey | hkey | hkey <;> rw [hkey] <;> exact ⟨by simp [hne], by simp [hne]⟩
  refine Handler.submits_of_bind fun o ho => Handler.submits_of_bind fun recipient _ => ?_
  refine Handler.submits_bind ((submits_admitSend o _).imp (habout o ho)) fun _ => ?_
  split
  · refine Handler.submits_submit_bind ?_ fun _ => Handler.submits_bind ((submits_storeCode lib o).imp ?_) fun _ => trivial
    · exact habout o ho _ (List.forall_mem_singleton.mpr (.inr (.inr rfl)))
    · exact fun ops hops => habout o ho ops fun w hw => .inr (.inl (hops w hw))
  · exact Handler.submits_bind ((submits_releaseSend o _).imp (habout o ho)) fun _ => trivial

/-- A call keeps what holds of its account. -/
theorem keeps_issue {Cond : Program Key Row (Except Raised IssuedCode) → Table Key Row → Prop} (lib : Library)
    (hF : ¬ F.responseLost) (hcond : ∀ ops next t, Cond (.transact ops next) t → Ordered r ops t)
    (h : requiredUserId r.userId = .ok owner) :
    (issue lib r).run.Keeps F (Sound owner) Cond i r (fun _ _ => True) (.early, r.now) := by
  refine Handler.keeps_of_bind (fun o ho => ?_) fun _ _ => trivial
  cases h.symm.trans ho
  refine Handler.keeps_of_bind (fun recipient _ => ?_) fun _ _ => trivial
  refine Handler.keeps_bind (Program.Keeps.mono (Q := fun result x => result = .ok () → x = (.admitted, r.now))
    (keeps_admitSend hF (fun ops next t hc => hcond ops _ t hc) (fun _ => rfl) (fun _ _ => nofun) _
      (x := .early) trivial) fun result x hx => ?_)
  cases result with
  | error e => trivial
  | ok _ =>
      obtain rfl := hx rfl
      change (if r.delivered = true then _ else _ : Action IssuedCode).run.Keeps _ _ _ _ _ _ _
      split
      · intro w g hg hi
        have hstore : ∀ x, (ExceptT.run (do
            let expiresAt ← storeCode lib r owner
            return IssuedCode.mk expiresAt (maskRecipient recipient) : Action IssuedCode)).Keeps F (Sound owner) Cond
              i r (fun _ _ => True) x := fun x => by
          refine Program.Submits.keeps (Handler.submits_bind (submits_storeCode lib owner) fun _ => trivial)
            (fun _ => trivial) fun ops _ w g hops hg _ _ _ => hg.frame r ?_ ?_
          · exact w.table.row_apply_of_notMem _ _ fun o ho => by simp [hops o ho]
          · exact w.table.row_apply_of_notMem _ _ fun o ho => by simp [hops o ho]
        refine ⟨fun _ => .same hg hi (hstore _), fun ha _ => ⟨?_, fun hlost => absurd hlost hF⟩⟩
        exact ⟨(.over, r.now), hg.deliver hi (w.table.row_apply_of_notMem _ _ (by simp [Write.update]))
          (eventsOf_apply ha.1 (List.mem_singleton_self _)), hstore _⟩
      · refine Handler.keeps_bind (Program.Keeps.mono (Q := fun _ _ => True)
          (keeps_releaseSend hF (fun _ _ => trivial) _ (x := .admitted) trivial) fun result _ _ => ?_)
        cases result <;> trivial

/-- A call keeps what holds of every other account. -/
theorem keeps_issue_of_other {Cond : Program Key Row (Except Raised IssuedCode) → Table Key Row → Prop}
    (lib : Library) (h : requiredUserId r.userId ≠ .ok owner) (x : Stage × ℕ) :
    (issue lib r).run.Keeps F (Sound owner) Cond i r (fun _ _ => True) x :=
  (submits_issue lib h).keeps (fun _ => trivial) fun _ _ w _ hops hg _ _ _ => hg.frame r
    (w.table.row_apply_of_notMem _ _ fun o ho heq => (hops o ho).1 heq.symm)
    (w.table.row_apply_of_notMem _ _ fun o ho heq => (hops o ho).2 heq.symm)

end

/-! ## Runs -/

section

variable {lib : Library} {s : Run}

theorem sound (owner : String) (h : StepsWhere (service lib) (fun m m' => TimeToLive m m' ∧ InOrder m m') (.initial .empty) s) :
    ∃ g, Sound owner s.view g := by
  have hinitial : Sound owner ⟨.empty, 0, []⟩ fun _ => none := by
    refine ⟨⟨Nat.zero_le _, nofun, nofun, nofun, fun _ => le_rfl, fun _ _ => le_rfl⟩,
      ⟨List.nodup_nil, nofun, nofun, nofun, List.nodup_nil, nofun, fun _ _ => Nat.zero_le _⟩, nofun⟩
  have hkept : ∃ g, Kept (service lib).faults.access (Sound owner)
      (fun r p t => ∀ ops next, p = .transact ops next → Ordered r ops t) (fun _ _ _ => True) s g := by
    refine StepsWhere.kept_along h hinitial (fun w g i hg => hg.returns i) ?_ ?_ ?_ id id ?_
      fun _ _ _ _ _ _ _ hrefused => hrefused
    · rintro m m' g t ⟨hlive, horder⟩ rfl hg hdrift hidle
      rcases hdrift.quota owner with hsame | hnone
      · exact hg.same hsame rfl rfl rfl le_rfl
      · cases hrow : m.table.row (.quota owner) with
        | none => exact hg.same (hnone.trans hrow.symm) rfl rfl rfl le_rfl
        | some row =>
            have hdeletes : Deletes m { m with table := t } owner row := ⟨rfl, hrow, hnone⟩
            refine hg.remove (fun i => hidle i (horder.removed owner row hdeletes i)) (fun found hfound => ?_) hnone
            cases hrow.symm.trans hfound
            exact hlive owner row hdeletes
    · rintro m m' g n - rfl hg hle
      exact hg.same rfl rfl rfl rfl hle
    · rintro m m' c g - - hg hnone hfresh ⟨hnow, hpositive⟩
      have hcalls : ∀ y, Knows owner m.view m.next y → Sound owner m.view (Function.update g m.next (some y)) :=
        fun y hy => ⟨hg.balanced, hg.accounted, calls_update hy fun j z _ hj => hg.calls j z hj⟩
      have hmoment : 0 < c.now ∧ c.now ≤ m.view.clock := ⟨hnow ▸ hpositive, hnow.le⟩
      by_cases howner : requiredUserId c.userId = .ok owner
      · refine ⟨(.early, c.now), hcalls _ ⟨hmoment, nofun, fun _ hmem => ?_, False.elim⟩,
          keeps_issue lib id (fun _ _ _ hc => hc _ _ rfl) howner⟩
        obtain ⟨a, ha, hid⟩ := List.mem_map.mp hmem
        obtain ⟨e, he, rfl⟩ := List.mem_map.mp ha
        exact hfresh e (List.mem_filter.mp he).1 hid
      · exact ⟨(.over, c.now), hcalls _ ⟨hmoment, nofun, False.elim, False.elim⟩,
          keeps_issue_of_other lib howner _⟩
    · rintro m m' ⟨-, horder⟩ c p ⟨i, ops, next, rfl, hrunning, hhistory⟩ ops' next' heq owner hmade
      cases heq
      exact horder.admitted _ hhistory owner hmade
  exact hkept.imp fun g hg => hg.holds

end

/-! ## A call that runs alone -/

section

variable {owner : String} {r : Issue} {t : Table Key Row}

theorem alone_releaseSend (attempts : ℕ) (t : Table Key Row) :
    ∃ u, (releaseSend r owner attempts).run.alone t = (.ok (), u) := by
  induction attempts generalizing t with
  | zero => exact ⟨t, rfl⟩
  | succ attempts ih =>
      unfold releaseSend readQuota
      rw [Handler.alone_get_bind]
      split
      · exact ⟨t, rfl⟩
      · split
        · exact ⟨t, rfl⟩
        · rw [Handler.alone_submit_bind]
          split
          · exact ⟨_, rfl⟩
          · exact ih t

theorem alone_storeCode (lib : Library) (t : Table Key Row) :
    ((storeCode lib r owner).run.alone t).1 ≠ .error .rateLimited := by
  unfold storeCode
  split
  · nofun
  · rw [Handler.alone_submit_bind]
    split <;> nofun

/-- Nobody else has written in between, so that the first attempt is admitted. -/
theorem admits_of_read (hpositive : ∀ row, t.row (.quota owner) = some row → 0 < row.version) :
    t.Admits (admits owner r.now (t.row (.quota owner))) := by
  constructor
  · by_cases hzero : versionOf (t.row (.quota owner)) = 0 <;> simp [admits, hzero, Write.put, Write.modify, Write.update]
  · refine List.forall_mem_cons.mpr ⟨?_, List.forall_mem_singleton.mpr rfl⟩
    cases hrow : t.row (.quota owner) with
    | none => exact congrArg Option.isNone hrow
    | some row =>
        have hne : versionOf (some row) ≠ 0 := (hpositive row hrow).ne'
        rw [if_neg hne]
        change (t.row (.quota owner)).any _ = true
        rw [hrow]
        exact decide_eq_true rfl

theorem alone_admitSend (hpositive : ∀ row, t.row (.quota owner) = some row → 0 < row.version) (attempts : ℕ) :
    ((admitSend r owner (attempts + 1)).run.alone t).1 = .error .rateLimited ↔
      MAX_SENDS_PER_WINDOW ≤ (recentSends r.now (t.row (.quota owner))).length := by
  unfold admitSend readQuota
  rw [Handler.alone_get_bind]
  split
  · rename_i hfull
    exact iff_of_true rfl hfull
  · rename_i hroom
    refine iff_of_false ?_ hroom
    split
    · nofun
    · rw [Handler.alone_submit_bind, if_pos (admits_of_read hpositive)]
      nofun

/-- A call alone is refused by what the row says. -/
theorem alone_issue (lib : Library) {recipient : String}
    (hpositive : ∀ row, t.row (.quota owner) = some row → 0 < row.version)
    (howner : requiredUserId r.userId = .ok owner) (hrecipient : requiredRecipient r.email = .ok recipient) :
    ((issue lib r).run.alone t).1 = .error .rateLimited ↔
      MAX_SENDS_PER_WINDOW ≤ (recentSends r.now (t.row (.quota owner))).length := by
  rw [← alone_admitSend hpositive (QUOTA_WRITE_ATTEMPTS - 1)]
  unfold issue
  rw [howner, hrecipient, Handler.alone_of_bind, Handler.alone_of_bind]
  refine Handler.alone_bind_eq_error_iff fun _ u => ?_
  split
  · rw [Handler.alone_submit_bind]
    have hstore : ∀ u, ((ExceptT.run (do
        let expiresAt ← storeCode lib r owner
        return IssuedCode.mk expiresAt (maskRecipient recipient) : Action IssuedCode)).alone u).1 ≠
          .error .rateLimited := fun u h => by
      refine alone_storeCode lib u ((Handler.alone_bind_eq_error_iff ?_).mp h)
      nofun
    split <;> exact hstore _
  · obtain ⟨v, hrelease⟩ : ∃ v, (releaseSend r owner QUOTA_WRITE_ATTEMPTS).run.alone u = (.ok (), v) :=
      alone_releaseSend QUOTA_WRITE_ATTEMPTS u
    rw [Handler.alone_bind_ok hrelease]
    nofun

end

/-! ## The limit -/

section

variable {lib : Library} {s : Run}

theorem Balanced.recent_length {owner : String} {w : View Key Row Issue} (h : Balanced owner w) :
    (recentSends w.clock (w.table.row (.quota owner))).length = (liveSends owner w.clock w.history).length := by
  rw [h.live_length]
  refine congrArg List.length (List.filter_congr fun stamp hmem => ?_)
  simp [isRecent, (h.stamped stamp hmem).1]

theorem send_limit (owner : String)
    (h : StepsWhere (service lib) (fun m m' => TimeToLive m m' ∧ InOrder m m') (.initial .empty) s) :
    (∀ start, (deliveredIn owner start s.history).length ≤ MAX_SENDS_PER_WINDOW) ∧
      ((admissions owner s.history).map Prod.fst).Nodup ∧
      (∀ e ∈ deliveries owner s.history, (e.id, e.call.now) ∈ unreleased owner s.history) ∧
      (∀ stamp, s.clock < stamp + SEND_WINDOW_SECONDS →
        (stamps owner s.table).count stamp = ((unreleased owner s.history).map Prod.snd).count stamp) ∧
      ∀ r recipient, requiredUserId r.userId = .ok owner → requiredRecipient r.email = .ok recipient →
        (service lib).mayStart s.clock r →
          (((issue lib r).run.alone s.table).1 = .error .rateLimited ↔
            (liveSends owner s.clock s.history).length = MAX_SENDS_PER_WINDOW) := by
  obtain ⟨g, hbalanced, haccounted, -⟩ := sound owner h
  have hprompt : ∀ e ∈ deliveries owner s.history, e.time = e.call.now := by
    have hall := h.forall_history (R := fun e => Made owner .delivered e → e.time = e.call.now)
      fun _ _ e horder hcons => horder.2.delivered e hcons owner
    exact fun e he => hall e (List.mem_filter.mp he).1 (of_decide_eq_true (List.mem_filter.mp he).2)
  refine ⟨haccounted.limit hprompt, haccounted.once, haccounted.delivered, fun stamp hlive => ?_, ?_⟩
  · exact (hbalanced.upper stamp).antisymm (hbalanced.lower stamp hlive)
  · rintro r recipient howner hrecipient ⟨hnow, -⟩
    have hlive : (recentSends s.clock (s.table.row (.quota owner))).length =
        (liveSends owner s.clock s.history).length := hbalanced.recent_length
    have hle : (recentSends s.clock (s.table.row (.quota owner))).length ≤ MAX_SENDS_PER_WINDOW :=
      (List.length_filter_le _ _).trans hbalanced.length
    rw [hlive] at hle
    refine (alone_issue lib hbalanced.version howner hrecipient).trans ?_
    rw [hnow]
    change MAX_SENDS_PER_WINDOW ≤ (recentSends s.clock (s.table.row (.quota owner))).length ↔ _
    rw [hlive]
    exact hle.ge_iff_eq'.trans eq_comm

end

/-! ## Two runs -/

section

variable {lib : Library} {s s' : Run}

/-- The service without other code. -/
def quiet (lib : Library) : Service Key Row Issue (Except Raised IssuedCode) :=
  { service lib with drift := fun _ _ => False }

theorem quiet_step (h : Step (quiet lib) s s') :
    s'.history = s.history ∧ s'.table = s.table ∨ ∃ e, s'.history = e :: s.history ∧ e.before = s.table := by
  cases h with
  | committed i c ops next hi ha => exact .inr ⟨_, rfl, rfl⟩
  | responseLost i c ops next hi ha hf => exact hf.elim
  | drift t ht => exact ht.elim
  | _ => exact .inl ⟨rfl, rfl⟩

theorem not_deletes (h : Step (quiet lib) s s') (owner : String) (row : QuotaRow) : ¬ Deletes s s' owner row := by
  rintro ⟨hhistory, hrow, hnone⟩
  rcases quiet_step h with ⟨-, htable⟩ | ⟨e, hcons, -⟩
  · rw [htable, hrow] at hnone
    cases hnone
  · exact List.cons_ne_self _ _ (hcons.symm.trans hhistory)

theorem step_of_quiet (h : Step (quiet lib) s s') : Step (service lib) s s' := by
  cases h with
  | start c hc => exact .start s c hc
  | read i c k next hi => exact .read s i c k next hi
  | readRaises i c k next hi hf => exact .readRaises s i c k next hi hf
  | query i c select next rows hi ha => exact .query s i c select next rows hi ha
  | queryRaises i c select next hi hf => exact .queryRaises s i c select next hi hf
  | refused i c ops next hi hf => exact .refused s i c ops next hi hf
  | committed i c ops next hi ha => exact .committed s i c ops next hi ha
  | responseLost i c ops next hi ha hf => exact hf.elim
  | drift t ht => exact ht.elim
  | tick n hn => exact .tick s n hn

theorem timeToLive_of_quiet (h : Steps (quiet lib) s s') : StepsWhere (service lib) TimeToLive s s' := by
  induction h with
  | refl => exact .refl
  | tail _ hstep ih =>
      exact ih.tail ⟨step_of_quiet hstep, fun owner row hdeletes => absurd hdeletes (not_deletes hstep owner row)⟩

theorem inOrder_of_quiet {x : Run} (h : Steps (quiet lib) x s) (hall : ∀ e ∈ s.history,
    e.time = e.call.now ∧ ∀ owner, ∀ stamp ∈ stamps owner e.before, stamp ≤ e.call.now) :
    StepsWhere (service lib) (fun m m' => TimeToLive m m' ∧ InOrder m m') x s := by
  induction h with
  | refl => exact .refl
  | tail _ hstep ih =>
      have hnone := not_deletes hstep
      refine (ih fun e he => hall e (hstep.history_subset he)).tail ⟨step_of_quiet hstep, ?_, ?_, ?_, ?_⟩
      · exact fun owner row hdeletes => absurd hdeletes (hnone owner row)
      · intro e hcons owner _ stamp hstamp
        rcases quiet_step hstep with ⟨hhistory, -⟩ | ⟨e', hcons', hbefore⟩
        · exact absurd (hcons.symm.trans hhistory) (List.cons_ne_self _ _)
        · obtain rfl := (List.cons.inj (hcons.symm.trans hcons')).1
          rw [← hbefore] at hstamp
          exact (hall e (hcons ▸ List.mem_cons_self)).2 owner stamp hstamp
      · exact fun e hcons _ _ => (hall e (hcons ▸ List.mem_cons_self)).1
      · exact fun owner row hdeletes => absurd hdeletes (hnone owner row)

end

namespace Sample

def library : Library := ⟨fun code salt => code ++ salt, fun _ => true⟩

def request (now : ℕ) (delivered : Bool) : Issue where
  userId := "u"
  email := "ann@example.org"
  code := "123456"
  salt := "00"
  now := now
  delivered := delivered

def waitUntil (clock : ℕ) (s : Run) : Run := { s with clock := clock }

/-- Calls that start one after the other, and each comes to its end. -/
def inTurn (r : Issue) : ℕ → Run → Run
  | 0, s => s
  | n + 1, s => inTurn r n ((s.launch (quiet library) r).advance s.next 20)

theorem inTurn_clock (r : Issue) (n : ℕ) (s : Run) : (inTurn r n s).clock = s.clock := by
  induction n generalizing s with
  | zero => rfl
  | succ n ih => exact (ih _).trans (State.advance_clock ..)

theorem inTurn_steps {r : Issue} (n : ℕ) {s : Run} (h : r.now = s.clock ∧ 0 < s.clock) :
    Steps (quiet library) s (inTurn r n s) := by
  induction n generalizing s with
  | zero => exact .refl
  | succ n ih =>
      refine ((State.launch_steps h).trans (State.advance_steps _ _ _)).trans (ih ?_)
      rw [State.advance_clock]
      exact h

theorem waitUntil_steps {clock : ℕ} {s : Run} (h : s.clock ≤ clock) :
    Steps (quiet library) s (waitUntil clock s) :=
  .single (.tick s clock h)

def single : Run := inTurn (request 100 true) 1 (waitUntil 100 (.initial .empty))

/-- The first call waits while four others come to their end. -/
def waiting : Run :=
  inTurn (request 102 true) 4
    (waitUntil 102 ((waitUntil 100 (.initial .empty)).launch (quiet library) (request 100 false)))

/-- Then its send is admitted, and given back when its mail fails. -/
def late : Run := waitUntil 3701 ((waitUntil 103 waiting).advance 0 20)

/-- The row is removed after its expiry, and five calls follow. -/
def removed : Run := { late with table := late.table.set (.quota "u") none }

def expired : Run := inTurn (request 3701 true) 5 removed

theorem late_steps : Steps (quiet library) (.initial .empty) late := by
  have hlaunch : Steps (quiet library) (.initial .empty)
      ((waitUntil 100 (.initial .empty)).launch (quiet library) (request 100 false)) :=
    (waitUntil_steps (Nat.zero_le _)).trans (State.launch_steps ⟨rfl, by decide⟩)
  have hwaiting : Steps (quiet library) (.initial .empty) waiting :=
    (hlaunch.trans (waitUntil_steps (Nat.le_add_right 100 2))).trans (inTurn_steps 4 ⟨rfl, Nat.succ_pos 101⟩)
  have hclock : waiting.clock = 102 := inTurn_clock ..
  have hadvanced : ((waitUntil 103 waiting).advance 0 20).clock = 103 := State.advance_clock ..
  exact ((hwaiting.trans (waitUntil_steps (by rw [hclock]; decide))).trans (State.advance_steps _ _ _)).trans
    (waitUntil_steps (by rw [hadvanced]; decide))

theorem expired_timeToLive : StepsWhere (service library) TimeToLive (.initial .empty) expired := by
  have hrow : late.table.row (.quota "u") = some ⟨[102, 102, 102, 102], 6, 3700⟩ := by decide +kernel
  have hdrift : OtherWrites late.table removed.table := by
    refine ⟨fun owner => Table.row_set_of_ne _ _ nofun, fun owner => ?_⟩
    by_cases howner : owner = "u"
    · subst howner
      exact .inr (Table.row_set_self ..)
    · exact .inl (Table.row_set_of_ne _ _ (by simpa using howner))
  have hremoved : TimeToLive late removed := by
    rintro owner row ⟨-, hbefore, hafter⟩
    by_cases howner : owner = "u"
    · subst howner
      rw [hrow] at hbefore
      cases hbefore
      decide
    · rw [show removed.table.row (.quota owner) = _ from Table.row_set_of_ne _ _ (by simpa using howner), hbefore] at hafter
      cases hafter
  refine ((timeToLive_of_quiet late_steps).tail ⟨.drift late _ hdrift, hremoved⟩).trans ?_
  have hclock : removed.clock = 3701 := rfl
  exact timeToLive_of_quiet (inTurn_steps 5 ⟨hclock.symm, hclock ▸ by decide⟩)

theorem single_inOrder : StepsWhere (service library) (fun m m' => TimeToLive m m' ∧ InOrder m m')
    (.initial .empty) single := by
  have hsteps : Steps (quiet library) (.initial .empty) single :=
    (waitUntil_steps (Nat.zero_le _)).trans (inTurn_steps 1 ⟨rfl, by decide⟩)
  have hkeys : ∀ e ∈ single.history, ∀ k ∈ e.before.keys, k ∈ [Key.quota "u", .code "u", .events "u"] := by
    decide
  have hstamps : ∀ e ∈ single.history,
      e.time = e.call.now ∧ ∀ stamp ∈ stamps "u" e.before, stamp ≤ e.call.now := by decide
  refine inOrder_of_quiet hsteps fun e he => ⟨(hstamps e he).1, fun owner stamp hstamp => ?_⟩
  by_cases howner : owner = "u"
  · subst howner
    exact (hstamps e he).2 stamp hstamp
  · have hnone : e.before.row (.quota owner) = none := by
      by_contra hsome
      have hmem := hkeys e he _ ((e.before.mem_keys _).mpr (Option.isSome_iff_ne_none.mpr hsome))
      simp [howner] at hmem
    rw [stamps, hnone] at hstamp
    cases hstamp

end Sample

theorem send_limit_sample : (deliveries "u" Sample.single.history).length = 1 ∧
    ∀ start, (deliveredIn "u" start Sample.single.history).length ≤ MAX_SENDS_PER_WINDOW :=
  ⟨by decide, (send_limit "u" Sample.single_inOrder).1⟩

/-- A call that was late has set the expiry of the row back. The row is gone a second
before the sends that it held are an hour old, and nine codes are delivered in an hour. -/
theorem send_limit_exceeded :
    StepsWhere (service Sample.library) TimeToLive (.initial .empty) Sample.expired ∧
      (∀ e ∈ deliveries "u" Sample.expired.history, e.time = e.call.now) ∧
      (deliveredIn "u" 102 Sample.expired.history).length = 9 :=
  ⟨Sample.expired_timeToLive, by decide +kernel, by decide +kernel⟩

end Stoa.SendQuota
