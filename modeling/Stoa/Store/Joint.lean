import Stoa.Store.Runs

/-! # Two services side by side

The calls of one service may depend, when they start, on the table of another:
they carry what they have found there. From then on the two run independently. -/

namespace RowStore

variable {K L : Type} {V : K → Type} {W : L → Type} {C D α β : Type}
  [DecidableEq K] [DecidableEq L]

/-- A service whose calls must also satisfy a condition when they start. -/
def Service.restrict (S : Service K V C α) (P : C → Prop) : Service K V C α :=
  { S with mayStart := fun τ c => S.mayStart τ c ∧ P c }

/-- What a step of the restricted service is. -/
theorem Step.of_restrict {S : Service K V C α} {P : C → Prop} {s s' : State K V C α}
    (h : Step (S.restrict P) s s') : Step S s s' := by
  cases h with
  | start c hc => exact .start s c hc.1
  | read i c k next hi => exact .read s i c k next hi
  | readRaises i c k next hi hf => exact .readRaises s i c k next hi hf
  | query i c select next rows hi ha => exact .query s i c select next rows hi ha
  | queryRaises i c select next hi hf => exact .queryRaises s i c select next hi hf
  | refused i c ops next hi hf => exact .refused s i c ops next hi hf
  | committed i c ops next hi ha => exact .committed s i c ops next hi ha
  | responseLost i c ops next hi ha hf => exact .responseLost s i c ops next hi ha hf
  | drift t ht => exact .drift s t ht
  | tick n hn => exact .tick s n hn

/-- What calls guarantee to each other does not depend on which of them start. -/
def Contract.restrict {S : Service K V C α} (Γ : Contract S) (P : C → Prop) :
    Contract (S.restrict P) where
  toInterference := Γ.toInterference
  Move := Γ.Move
  move_inv := Γ.move_inv
  move_rely := Γ.move_rely
  drift_inv := Γ.drift_inv
  drift_rely := Γ.drift_rely

omit [DecidableEq K] in
theorem State.running_of_resume {s : State K V C α} {i j : ℕ} {c d : C} {p q : Program K V α}
    (h : (s.resume i c p).running j = some (d, q)) :
    (j = i ∧ d = c) ∨ s.running j = some (d, q) := by
  unfold resume at h
  split at h
  all_goals
    by_cases hj : j = i
    · subst hj
      simp at h
      try exact .inl ⟨rfl, h.1.symm⟩
    · exact .inr (by simpa [hj] using h)

/-- A call that runs after a step was running before, or has been started by it. -/
theorem Step.running {S : Service K V C α} {s s' : State K V C α} (h : Step S s s') {i : ℕ} {c : C}
    {p : Program K V α} (hi : s'.running i = some (c, p)) :
    (∃ q, s.running i = some (c, q)) ∨ S.mayStart s.clock c := by
  have hresumed : ∀ {x : State K V C α} {j : ℕ} {d : C} {q r : Program K V α},
      x.running = s.running → s.running j = some (d, r) →
      (x.resume j d q).running i = some (c, p) → ∃ q, s.running i = some (c, q) := by
    intro x j d q r hx hj hrun
    rcases State.running_of_resume hrun with ⟨rfl, rfl⟩ | hrun
    · exact ⟨r, hj⟩
    · exact ⟨p, hx ▸ hrun⟩
  cases h with
  | start d hd =>
      rcases State.running_of_resume hi with ⟨-, rfl⟩ | hrun
      · exact .inr hd
      · exact .inl ⟨p, hrun⟩
  | read j d k next hj => exact .inl (hresumed rfl hj hi)
  | readRaises j d k next hj hf => exact .inl (hresumed rfl hj hi)
  | query j d select next rows hj ha => exact .inl (hresumed rfl hj hi)
  | queryRaises j d select next hj hf => exact .inl (hresumed rfl hj hi)
  | refused j d ops next hj hf => exact .inl (hresumed rfl hj hi)
  | committed j d ops next hj ha => exact .inl (hresumed rfl hj hi)
  | responseLost j d ops next hj ha hf => exact .inl (hresumed rfl hj hi)
  | drift t ht => exact .inl ⟨p, hi⟩
  | tick n hn => exact .inl ⟨p, hi⟩

/-! ## Runs of both -/

structure Joint (K : Type) (V : K → Type) (C α : Type) (L : Type) (W : L → Type) (D β : Type) where
  left : State K V C α
  right : State L W D β

namespace Joint

variable (S : Service K V C α) (S' : Service L W D β) (carries : Table K V → D → Prop)

/-- Either service makes a step. A call of the right one starts with what it
carries from the left table. -/
inductive Step : Joint K V C α L W D β → Joint K V C α L W D β → Prop where
  | left (j : Joint K V C α L W D β) (l : State K V C α) (h : RowStore.Step S j.left l) :
      Step j ⟨l, j.right⟩
  | right (j : Joint K V C α L W D β) (r : State L W D β)
      (h : RowStore.Step (S'.restrict (carries j.left.table)) j.right r) : Step j ⟨j.left, r⟩

def Reachable (t : Table K V) (u : Table L W) : Joint K V C α L W D β → Prop :=
  Relation.ReflTransGen (Step S S' carries) ⟨.initial t, .initial u⟩

variable {S S' carries} {t : Table K V} {u : Table L W} {j : Joint K V C α L W D β}

theorem Reachable.left_reachable (h : Reachable S S' carries t u j) :
    RowStore.Reachable S t j.left := by
  induction h with
  | refl => exact .refl
  | tail _ hstep ih =>
      cases hstep with
      | left l hl => exact ih.tail hl
      | right r hr => exact ih

theorem Reachable.right_reachable (h : Reachable S S' carries t u j) :
    RowStore.Reachable S' u j.right := by
  induction h with
  | refl => exact .refl
  | tail _ hstep ih =>
      cases hstep with
      | left l hl => exact ih
      | right r hr => exact ih.tail hr.of_restrict

/-- A run of the left service alone. -/
theorem Reachable.left_steps {l : State K V C α} (h : Reachable S S' carries t u j)
    (hl : Steps S j.left l) : Reachable S S' carries t u ⟨l, j.right⟩ := by
  induction hl with
  | refl => exact h
  | tail _ hstep ih => exact ih.tail (.left _ _ hstep)

/-- A run of the right service alone, on what its calls may carry now. -/
theorem Reachable.right_steps {r : State L W D β} (h : Reachable S S' carries t u j)
    (hr : Steps (S'.restrict (carries j.left.table)) j.right r) :
    Reachable S S' carries t u ⟨j.left, r⟩ := by
  induction hr with
  | refl => exact h
  | tail _ hstep ih => exact ih.tail (.right _ _ hstep)

/-- The rule for both: what a call carries stays good in the left table, and
whatever is written with it stays good there too. -/
theorem Reachable.invariant (h : Reachable S S' carries t u j) (Γ : Contract S) (Γ' : Contract S')
    (Q : C → Post K V α) (Q' : D → Post L W β) (hinv : Γ.Inv t) (hinv' : Γ'.Inv u)
    (hsafe : ∀ c t, Γ.Inv t → (S.body c).Safe S.faults Γ.toInterference (Γ.Move c) (Q c) [] t)
    (hsafe' : ∀ d u, Γ'.Inv u →
      (S'.body d).Safe S'.faults Γ'.toInterference (Γ'.Move d) (Q' d) [] u)
    (Good : Table K V → D → Prop) (Cond : C → Table K V → Prop)
    {J : Table K V → Table L W → Prop} (hcarries : ∀ t d, carries t d → Good t d)
    (hmove : ∀ c t t', Γ.Inv t → Γ.Move c t t' → Cond c t →
      (∀ d, Good t d → Good t' d) ∧ ∀ u, J t u → J t' u)
    (hdrift : ∀ t t', Γ.Inv t → S.drift t t' → (∀ d, Good t d → Good t' d) ∧ ∀ u, J t u → J t' u)
    (hmove' : ∀ d t u u', Γ'.Inv u → Good t d → J t u → Γ'.Move d u u' → J t u')
    (hdrift' : ∀ t u u', Γ'.Inv u → J t u → S'.drift u u' → J t u')
    (hstart : J t u) (hcond : ∀ e ∈ j.left.history, Cond e.call e.before) :
    J j.left.table j.right.table ∧
      ∀ i d p, j.right.running i = some (d, p) → Good j.left.table d := by
  induction h with
  | refl => exact ⟨hstart, by simp [State.initial]⟩
  | @tail m m' hrun hstep ih =>
      cases hstep with
      | left l hl =>
          obtain ⟨hJ, hgood⟩ := ih fun e he => hcond e (hl.history_subset he)
          have hm : Sound Γ (fun _ => Q) m.left :=
            RowStore.Reachable.sound (Reachable.left_reachable hrun) hinv hsafe
          have hnext : (∀ d, Good m.left.table d → Good l.table d) ∧
              ∀ u, J m.left.table u → J l.table u := by
            rcases hm.step_table hl with heq | hd | ⟨e, he, hbefore, -, hmv⟩
            · rw [heq]
              exact ⟨fun _ hd => hd, fun _ hu => hu⟩
            · exact hdrift _ _ hm.inv hd
            · exact hmove _ _ _ hm.inv hmv (hbefore ▸ hcond e he)
          exact ⟨hnext.2 _ hJ, fun i d p hi => hnext.1 d (hgood i d p hi)⟩
      | right r hr =>
          obtain ⟨hJ, hgood⟩ := ih hcond
          have hm : Sound Γ' (fun _ => Q') m.right :=
            RowStore.Reachable.sound (Reachable.right_reachable hrun) hinv' hsafe'
          refine ⟨?_, fun i d p hi => ?_⟩
          · rcases hm.step_table hr.of_restrict with heq | hd | ⟨e, -, -, ⟨p, hi⟩, hmv⟩
            · exact heq ▸ hJ
            · exact hdrift' _ _ _ hm.inv hJ hd
            · exact hmove' e.call _ _ _ hm.inv (hgood e.id e.call p hi) hJ hmv
          · rcases hr.running hi with ⟨q, hq⟩ | hstarted
            · exact hgood i d q hq
            · exact hcarries _ _ hstarted.2

end Joint

end RowStore
