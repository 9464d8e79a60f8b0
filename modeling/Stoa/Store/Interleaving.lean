import Stoa.Store.Program
import Mathlib.Data.Nat.Basic
import Mathlib.Logic.Relation

/-! # Interleaved calls of a service

Any number of calls run against one table. A step lets one call make its next
access, starts a new call, advances the clock, or lets other code write. The
history records every commit and the returns every result; neither is visible
to a call. -/

namespace RowStore

variable {K : Type} {V : K → Type} {C α : Type}

/-- What runs against the table: the program of each call, the clock readings a
call may be started with, what other code may write, and how accesses fail. -/
structure Service (K : Type) (V : K → Type) (C α : Type) where
  body : C → Program K V α
  mayStart : ℕ → C → Prop
  drift : Table K V → Table K V → Prop
  faults : Faults

structure Commit (K : Type) (V : K → Type) (C : Type) where
  id : ℕ
  call : C
  time : ℕ
  before : Table K V
  after : Table K V

structure Return (K : Type) (V : K → Type) (C α : Type) where
  id : ℕ
  call : C
  result : α
  table : Table K V

structure State (K : Type) (V : K → Type) (C α : Type) where
  table : Table K V
  clock : ℕ
  /-- The identity of the next call to start. -/
  next : ℕ
  running : ℕ → Option (C × Program K V α)
  /-- Every commit made by a call, the latest first. -/
  history : List (Commit K V C)
  returned : List (Return K V C α)

namespace Program

/-- The result of a program that has nothing left to do. -/
def result? : Program K V α → Option α
  | ret a => some a
  | read _ _ => none
  | query _ _ => none
  | transact _ _ => none

theorem eq_ret_of_result? {p : Program K V α} {a : α} (h : p.result? = some a) :
    p = ret a := by
  cases p <;> simp_all [result?]

end Program

namespace State

/-- No call has been made yet. -/
def initial (t : Table K V) : State K V C α := ⟨t, 0, 0, fun _ => none, [], []⟩

/-- Call `i` goes on as `p`, and returns if that has a result. -/
def resume (s : State K V C α) (i : ℕ) (c : C) (p : Program K V α) : State K V C α :=
  { s with
    running := Function.update s.running i
      (match p.result? with
        | some _ => none
        | none => some (c, p))
    returned :=
      match p.result? with
      | some a => ⟨i, c, a, s.table⟩ :: s.returned
      | none => s.returned }

def open_ (s : State K V C α) : State K V C α := { s with next := s.next + 1 }

/-- The commits of call `i`, as the tables before and after, the latest first. -/
def commits (s : State K V C α) (i : ℕ) : List (Table K V × Table K V) :=
  (s.history.filter (fun h => h.id = i)).map fun h => (h.before, h.after)

variable [DecidableEq K]

/-- Call `i` commits the transaction `ops`. -/
def commit (s : State K V C α) (i : ℕ) (c : C) (ops : List (Write K V)) : State K V C α :=
  { s with
    table := s.table.apply ops
    history := ⟨i, c, s.clock, s.table, s.table.apply ops⟩ :: s.history }

end State

variable [DecidableEq K]

/-- One step of the service. -/
inductive Step (S : Service K V C α) : State K V C α → State K V C α → Prop where
  | start (s) (c : C) (h : S.mayStart s.clock c) :
      Step S s (s.open_.resume s.next c (S.body c))
  | read (s) (i : ℕ) (c : C) (k : K) (next)
      (h : s.running i = some (c, .read k next)) :
      Step S s (s.resume i c (next (some (s.table.row k))))
  | readRaises (s) (i : ℕ) (c : C) (k : K) (next)
      (h : s.running i = some (c, .read k next)) (hf : S.faults.readRaises) :
      Step S s (s.resume i c (next none))
  | query (s) (i : ℕ) (c : C) (select : K → Bool) (next) (rows)
      (h : s.running i = some (c, .query select next))
      (ha : s.table.Answers select rows) :
      Step S s (s.resume i c (next (some rows)))
  | queryRaises (s) (i : ℕ) (c : C) (select : K → Bool) (next)
      (h : s.running i = some (c, .query select next)) (hf : S.faults.readRaises) :
      Step S s (s.resume i c (next none))
  | refused (s) (i : ℕ) (c : C) (ops : List (Write K V)) (next)
      (h : s.running i = some (c, .transact ops next))
      (hf : S.faults.writeRefused ∨ ¬ s.table.Admits ops) :
      Step S s (s.resume i c (next false))
  | committed (s) (i : ℕ) (c : C) (ops : List (Write K V)) (next)
      (h : s.running i = some (c, .transact ops next)) (ha : s.table.Admits ops) :
      Step S s ((s.commit i c ops).resume i c (next true))
  | responseLost (s) (i : ℕ) (c : C) (ops : List (Write K V)) (next)
      (h : s.running i = some (c, .transact ops next)) (ha : s.table.Admits ops)
      (hf : S.faults.responseLost) :
      Step S s ((s.commit i c ops).resume i c (next false))
  | drift (s) (t : Table K V) (h : S.drift s.table t) : Step S s { s with table := t }
  | tick (s) (n : ℕ) (h : s.clock ≤ n) : Step S s { s with clock := n }

/-- A run of any length. -/
abbrev Steps (S : Service K V C α) : State K V C α → State K V C α → Prop :=
  Relation.ReflTransGen (Step S)

/-- The states reachable from a table on which no call has been made yet. -/
def Reachable (S : Service K V C α) (t : Table K V) (s : State K V C α) : Prop :=
  Steps S (.initial t) s

/-- What the calls of a service guarantee to each other: every call is safe
under the rely, and every move and every drift stays inside it. -/
structure Contract (S : Service K V C α) extends Interference K V where
  Move : C → Table K V → Table K V → Prop
  move_inv : ∀ {c t t'}, Inv t → Move c t t' → Inv t'
  move_rely : ∀ {c t t'}, Inv t → Move c t t' → Rely t t'
  drift_inv : ∀ {t t'}, Inv t → S.drift t t' → Inv t'
  drift_rely : ∀ {t t'}, Inv t → S.drift t t' → Rely t t'

/-- What holds in every state of a run, where `Q i c` is what the call `c`
started under identity `i` owes when it returns. -/
structure Sound {S : Service K V C α} (Γ : Contract S) (Q : ℕ → C → Post K V α)
    (s : State K V C α) : Prop where
  inv : Γ.Inv s.table
  running : ∀ i c p, s.running i = some (c, p) →
    p.Safe S.faults Γ.toInterference (Γ.Move c) (Q i c) (s.commits i) s.table ∧
      p.result? = none
  running_fresh : ∀ i c p, s.running i = some (c, p) →
    i < s.next ∧ i ∉ s.returned.map Return.id ∧ ∃ τ ≤ s.clock, S.mayStart τ c
  returned : ∀ r ∈ s.returned,
    Q r.id r.call r.result (s.commits r.id) r.table ∧ r.id < s.next ∧
      s.running r.id = none ∧ Γ.Inv r.table ∧ Γ.Rely r.table s.table
  returned_once : (s.returned.map Return.id).Nodup
  history : ∀ h ∈ s.history, Γ.Inv h.before ∧ Γ.Move h.call h.before h.after ∧
    Γ.Rely h.after s.table ∧ h.id < s.next
  history_time : ∀ h ∈ s.history, h.time ≤ s.clock ∧ ∃ τ ≤ h.time, S.mayStart τ h.call
  ordered : s.history.Pairwise fun later earlier =>
    Γ.Rely earlier.after later.before ∧ earlier.time ≤ later.time

namespace Sound

variable {S : Service K V C α} {Γ : Contract S} {Q : ℕ → C → Post K V α}
  {s : State K V C α}

omit [DecidableEq K] in
@[simp] theorem commits_resume (s : State K V C α) (i j : ℕ) (c : C) (p : Program K V α) :
    (s.resume i c p).commits j = s.commits j := rfl

theorem initial {t : Table K V} (h : Γ.Inv t) : Sound Γ Q (.initial t) where
  inv := h
  running := by simp [State.initial]
  running_fresh := by simp [State.initial]
  returned := by simp [State.initial]
  returned_once := by simp [State.initial]
  history := by simp [State.initial]
  history_time := by simp [State.initial]
  ordered := by simp [State.initial]

/-- A call that is not running any more may be resumed as any safe program. -/
theorem resume (h : Sound Γ Q s) {i : ℕ} {c : C} {p : Program K V α} (hi : i < s.next)
    (hnew : i ∉ s.returned.map Return.id) (hstart : ∃ τ ≤ s.clock, S.mayStart τ c)
    (hp : p.Safe S.faults Γ.toInterference (Γ.Move c) (Q i c) (s.commits i) s.table) :
    Sound Γ Q (s.resume i c p) := by
  cases hres : p.result? with
  | none =>
      have hrun : (s.resume i c p).running = Function.update s.running i (some (c, p)) := by
        simp [State.resume, hres]
      have hret : (s.resume i c p).returned = s.returned := by simp [State.resume, hres]
      refine ⟨h.inv, ?_, ?_, ?_, by rw [hret]; exact h.returned_once, h.history,
        h.history_time, h.ordered⟩
      · intro j d q hj
        rw [hrun] at hj
        by_cases hji : j = i
        · subst hji
          simp only [Function.update_self, Option.some.injEq, Prod.mk.injEq] at hj
          obtain ⟨rfl, rfl⟩ := hj
          exact ⟨hp, hres⟩
        · rw [Function.update_of_ne hji] at hj
          exact h.running j d q hj
      · intro j d q hj
        rw [hret]
        rw [hrun] at hj
        by_cases hji : j = i
        · subst hji
          simp only [Function.update_self, Option.some.injEq, Prod.mk.injEq] at hj
          obtain ⟨rfl, rfl⟩ := hj
          exact ⟨hi, hnew, hstart⟩
        · rw [Function.update_of_ne hji] at hj
          exact h.running_fresh j d q hj
      · intro r hr
        rw [hret] at hr
        obtain ⟨hq, hlt, hnone, hrely⟩ := h.returned r hr
        have hne : r.id ≠ i := fun he => hnew (he ▸ List.mem_map_of_mem hr)
        exact ⟨hq, hlt, by rw [hrun, Function.update_of_ne hne]; exact hnone, hrely⟩
  | some a =>
      have hp' : Q i c a (s.commits i) s.table := by
        rw [Program.eq_ret_of_result? hres] at hp
        exact hp
      have hrun : (s.resume i c p).running = Function.update s.running i none := by
        simp [State.resume, hres]
      have hret : (s.resume i c p).returned = ⟨i, c, a, s.table⟩ :: s.returned := by
        simp [State.resume, hres]
      have hother : ∀ {j d q}, (s.resume i c p).running j = some (d, q) →
          j ≠ i ∧ s.running j = some (d, q) := by
        intro j d q hj
        rw [hrun] at hj
        by_cases hji : j = i
        · subst hji
          simp at hj
        · exact ⟨hji, by rwa [Function.update_of_ne hji] at hj⟩
      refine ⟨h.inv, ?_, ?_, ?_, ?_, h.history, h.history_time, h.ordered⟩
      · intro j d q hj
        exact h.running j d q (hother hj).2
      · intro j d q hj
        obtain ⟨hlt, hnot, hst⟩ := h.running_fresh j d q (hother hj).2
        refine ⟨hlt, ?_, hst⟩
        rw [hret]
        simp only [List.map_cons, List.mem_cons, not_or]
        exact ⟨(hother hj).1, hnot⟩
      · intro r hr
        rw [hret] at hr
        rcases List.mem_cons.mp hr with rfl | hr
        · exact ⟨hp', hi, by simp [hrun], h.inv, Γ.refl _⟩
        · obtain ⟨hq, hlt, hnone, hrely⟩ := h.returned r hr
          have hne : r.id ≠ i := fun he => hnew (he ▸ List.mem_map_of_mem hr)
          exact ⟨hq, hlt, by rw [hrun, Function.update_of_ne hne]; exact hnone, hrely⟩
      · rw [hret]
        simpa using ⟨by simpa using hnew, h.returned_once⟩

/-- The state in which call `i` is not scheduled. -/
private def pause (s : State K V C α) (i : ℕ) : State K V C α :=
  { s with running := Function.update s.running i none }

omit [DecidableEq K] in
private theorem running_pause {i j : ℕ} {d : C} {q : Program K V α}
    (hj : (pause s i).running j = some (d, q)) : j ≠ i ∧ s.running j = some (d, q) := by
  by_cases hji : j = i
  · subst hji
    simp [pause] at hj
  · exact ⟨hji, by simpa [pause, hji] using hj⟩

omit [DecidableEq K] in
private theorem resume_pause (i : ℕ) (c : C) (p : Program K V α) :
    (pause s i).resume i c p = s.resume i c p := by
  simp [State.resume, pause]

private theorem commit_resume_pause (i : ℕ) (c : C) (ops : List (Write K V))
    (p : Program K V α) :
    ((pause s i).commit i c ops).resume i c p = (s.commit i c ops).resume i c p := by
  simp [State.resume, State.commit, pause]

private theorem paused (h : Sound Γ Q s) (i : ℕ) : Sound Γ Q (pause s i) where
  inv := h.inv
  running := fun j d q hj => h.running j d q (running_pause hj).2
  running_fresh := fun j d q hj => h.running_fresh j d q (running_pause hj).2
  returned := by
    intro r hr
    obtain ⟨hq, hlt, hnone, hrely⟩ := h.returned r hr
    refine ⟨hq, hlt, ?_, hrely⟩
    by_cases hri : r.id = i
    · simp [pause, hri]
    · simpa [pause, hri] using hnone
  returned_once := h.returned_once
  history := h.history
  history_time := h.history_time
  ordered := h.ordered

omit [DecidableEq K] in
private theorem commits_cons_of_ne {hd : Commit K V C} {tl : List (Commit K V C)}
    {t : Table K V} (hs : s.history = tl) {j : ℕ} (hj : j ≠ hd.id) :
    ({ s with table := t, history := hd :: tl } : State K V C α).commits j =
      s.commits j := by
  subst hs
  simp [State.commits, Ne.symm hj]

/-- A paused call commits a move. -/
private theorem commit (h : Sound Γ Q s) {i : ℕ} {c : C} {ops : List (Write K V)}
    (hi : i < s.next) (hnew : i ∉ s.returned.map Return.id)
    (hnone : s.running i = none) (hstart : ∃ τ ≤ s.clock, S.mayStart τ c)
    (hmove : Γ.Move c s.table (s.table.apply ops)) : Sound Γ Q (s.commit i c ops) := by
  have hrely := Γ.move_rely h.inv hmove
  have hcommits : ∀ j, j ≠ i → (s.commit i c ops).commits j = s.commits j :=
    fun j hj => commits_cons_of_ne rfl hj
  refine ⟨Γ.move_inv h.inv hmove, ?_, h.running_fresh, ?_, h.returned_once, ?_, ?_, ?_⟩
  · intro j d q hj
    obtain ⟨hsafe, hres⟩ := h.running j d q hj
    have hji : j ≠ i := by
      rintro rfl
      simp [State.commit, hnone] at hj
    rw [hcommits j hji]
    refine ⟨Program.Safe.rely ?_ hsafe hrely, hres⟩
    rintro a rfl
    simp [Program.result?] at hres
  · intro r hr
    obtain ⟨hq, hlt, hn, hr'⟩ := h.returned r hr
    have hri : r.id ≠ i := fun he => hnew (he ▸ List.mem_map_of_mem hr)
    rw [hcommits r.id hri]
    exact ⟨hq, hlt, hn, hr'.1, Γ.trans hr'.2 hrely⟩
  · intro e he
    rcases List.mem_cons.mp he with rfl | he
    · exact ⟨h.inv, hmove, Γ.refl _, hi⟩
    · obtain ⟨hinv, hm, hr, hlt⟩ := h.history e he
      exact ⟨hinv, hm, Γ.trans hr hrely, hlt⟩
  · intro e he
    rcases List.mem_cons.mp he with rfl | he
    · exact ⟨le_rfl, hstart⟩
    · exact h.history_time e he
  · refine List.pairwise_cons.mpr ⟨?_, h.ordered⟩
    intro e he
    exact ⟨(h.history e he).2.2.1, (h.history_time e he).1⟩

private theorem drift (h : Sound Γ Q s) {t : Table K V} (ht : S.drift s.table t) :
    Sound Γ Q { s with table := t } := by
  have hrely := Γ.drift_rely h.inv ht
  refine ⟨Γ.drift_inv h.inv ht, ?_, h.running_fresh, ?_, h.returned_once, ?_,
    h.history_time, h.ordered⟩
  · intro j d q hj
    obtain ⟨hsafe, hres⟩ := h.running j d q hj
    refine ⟨Program.Safe.rely ?_ hsafe hrely, hres⟩
    rintro a rfl
    simp [Program.result?] at hres
  · intro r hr
    obtain ⟨hq, hlt, hn, hr'⟩ := h.returned r hr
    exact ⟨hq, hlt, hn, hr'.1, Γ.trans hr'.2 hrely⟩
  · intro e he
    obtain ⟨hinv, hm, hr, hlt⟩ := h.history e he
    exact ⟨hinv, hm, Γ.trans hr hrely, hlt⟩

private theorem tick (h : Sound Γ Q s) {n : ℕ} (hn : s.clock ≤ n) :
    Sound Γ Q { s with clock := n } where
  inv := h.inv
  running := h.running
  running_fresh := by
    intro j d q hj
    obtain ⟨hlt, hnot, τ, hτ, hst⟩ := h.running_fresh j d q hj
    exact ⟨hlt, hnot, τ, hτ.trans hn, hst⟩
  returned := h.returned
  returned_once := h.returned_once
  history := h.history
  history_time := fun e he => ⟨(h.history_time e he).1.trans hn, (h.history_time e he).2⟩
  ordered := h.ordered

private theorem opened (h : Sound Γ Q s) : Sound Γ Q s.open_ where
  inv := h.inv
  running := h.running
  running_fresh := fun j d q hj =>
    ⟨Nat.lt_succ_of_lt (h.running_fresh j d q hj).1, (h.running_fresh j d q hj).2⟩
  returned := by
    intro r hr
    obtain ⟨hq, hlt, hn, hr'⟩ := h.returned r hr
    exact ⟨hq, Nat.lt_succ_of_lt hlt, hn, hr'⟩
  returned_once := h.returned_once
  history := by
    intro e he
    obtain ⟨hinv, hm, hr, hlt⟩ := h.history e he
    exact ⟨hinv, hm, hr, Nat.lt_succ_of_lt hlt⟩
  history_time := h.history_time
  ordered := h.ordered

private theorem commits_next (h : Sound Γ Q s) : s.commits s.next = [] := by
  have hnil : s.history.filter (fun e => e.id = s.next) = [] := by
    apply List.filter_eq_nil_iff.mpr
    intro e he
    have := (h.history e he).2.2.2
    simp only [decide_eq_true_eq]
    omega
  simp [State.commits, hnil]

/-- One step keeps the state sound, if a call started by it is safe. -/
theorem step {s' : State K V C α} (h : Sound Γ Q s) (hs : Step S s s')
    (hstart : ∀ c, (S.body c).Safe S.faults Γ.toInterference (Γ.Move c)
      (Q s.next c) [] s.table) : Sound Γ Q s' := by
  cases hs with
  | start c hc =>
      refine h.opened.resume (Nat.lt_succ_self _) ?_ ⟨_, le_rfl, hc⟩ ?_
      · intro hmem
        obtain ⟨r, hr, hid⟩ := List.mem_map.mp hmem
        have := (h.returned r hr).2.1
        omega
      · have hnil : s.open_.commits s.next = [] := h.commits_next
        rw [hnil]
        exact hstart c
  | read i c k next hi =>
      obtain ⟨hlt, hnew, hst⟩ := h.running_fresh i c _ hi
      exact h.resume hlt hnew hst (((h.running i c _ hi).1 _ (Γ.refl _) h.inv).1)
  | readRaises i c k next hi hf =>
      obtain ⟨hlt, hnew, hst⟩ := h.running_fresh i c _ hi
      exact h.resume hlt hnew hst (((h.running i c _ hi).1 _ (Γ.refl _) h.inv).2 hf)
  | query i c select next rows hi ha =>
      obtain ⟨hlt, hnew, hst⟩ := h.running_fresh i c _ hi
      exact h.resume hlt hnew hst (((h.running i c _ hi).1 _ (Γ.refl _) h.inv).1 rows ha)
  | queryRaises i c select next hi hf =>
      obtain ⟨hlt, hnew, hst⟩ := h.running_fresh i c _ hi
      exact h.resume hlt hnew hst (((h.running i c _ hi).1 _ (Γ.refl _) h.inv).2 hf)
  | refused i c ops next hi hf =>
      obtain ⟨hlt, hnew, hst⟩ := h.running_fresh i c _ hi
      exact h.resume hlt hnew hst (((h.running i c _ hi).1 _ (Γ.refl _) h.inv).1 hf)
  | committed i c ops next hi ha =>
      obtain ⟨hlt, hnew, hst⟩ := h.running_fresh i c _ hi
      obtain ⟨hmove, hok, -⟩ := ((h.running i c _ hi).1 _ (Γ.refl _) h.inv).2 ha
      rw [← commit_resume_pause]
      refine ((h.paused i).commit hlt hnew (by simp [pause]) hst hmove).resume hlt hnew hst ?_
      simpa [State.commits, State.commit, pause] using hok
  | responseLost i c ops next hi ha hf =>
      obtain ⟨hlt, hnew, hst⟩ := h.running_fresh i c _ hi
      obtain ⟨hmove, -, hlost⟩ := ((h.running i c _ hi).1 _ (Γ.refl _) h.inv).2 ha
      rw [← commit_resume_pause]
      refine ((h.paused i).commit hlt hnew (by simp [pause]) hst hmove).resume hlt hnew hst ?_
      simpa [State.commits, State.commit, pause] using hlost hf
  | drift t ht => exact h.drift ht
  | tick n hn => exact h.tick hn

end Sound

/-- The next identity only grows along a run. -/
theorem Step.next_le {S : Service K V C α} {s s' : State K V C α} (h : Step S s s') :
    s.next ≤ s'.next := by
  cases h <;> simp [State.resume, State.commit, State.open_]

/-- What one step from a sound state does to the table. -/
theorem Sound.step_table {S : Service K V C α} {Γ : Contract S} {Q : ℕ → C → Post K V α}
    {s s' : State K V C α} (h : Sound Γ Q s) (hs : Step S s s') :
    s'.table = s.table ∨ S.drift s.table s'.table ∨
      ∃ e ∈ s'.history, e.before = s.table ∧ (∃ p, s.running e.id = some (e.call, p)) ∧
        Γ.Move e.call s.table s'.table := by
  cases hs with
  | committed i c ops next hi ha =>
      obtain ⟨hmove, -⟩ := ((h.running i c _ hi).1 _ (Γ.refl _) h.inv).2 ha
      exact .inr (.inr ⟨_, List.mem_cons_self .., rfl, ⟨_, hi⟩, hmove⟩)
  | responseLost i c ops next hi ha hf =>
      obtain ⟨hmove, -⟩ := ((h.running i c _ hi).1 _ (Γ.refl _) h.inv).2 ha
      exact .inr (.inr ⟨_, List.mem_cons_self .., rfl, ⟨_, hi⟩, hmove⟩)
  | drift t ht => exact .inr (.inl ht)
  | _ => exact .inl rfl

/-- Along a run from a sound state, every change is inside the rely. -/
theorem Sound.step_rely {S : Service K V C α} {Γ : Contract S} {Q : ℕ → C → Post K V α}
    {s s' : State K V C α} (h : Sound Γ Q s) (hs : Step S s s') :
    Γ.Rely s.table s'.table := by
  rcases h.step_table hs with heq | hdrift | ⟨_, -, -, -, hmove⟩
  · rw [heq]
    exact Γ.refl _
  · exact Γ.drift_rely h.inv hdrift
  · exact Γ.move_rely h.inv hmove

/-- The run lemma: soundness is kept along a run in which every call started is
safe from every table that the run may have reached. -/
theorem Sound.steps {S : Service K V C α} {Γ : Contract S} {Q : ℕ → C → Post K V α}
    {s s' : State K V C α} (h : Sound Γ Q s) (hrun : Steps S s s')
    (hstart : ∀ i c t, s.next ≤ i → Γ.Inv t → Γ.Rely s.table t →
      (S.body c).Safe S.faults Γ.toInterference (Γ.Move c) (Q i c) [] t) :
    Sound Γ Q s' ∧ s.next ≤ s'.next ∧ Γ.Rely s.table s'.table := by
  induction hrun with
  | refl => exact ⟨h, le_rfl, Γ.refl _⟩
  | tail _ hstep ih =>
      obtain ⟨hmid, hle, hrely⟩ := ih
      refine ⟨hmid.step hstep fun c => hstart _ c _ hle hmid.inv hrely,
        hle.trans hstep.next_le, Γ.trans hrely (hmid.step_rely hstep)⟩

end RowStore
