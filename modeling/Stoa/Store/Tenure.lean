import Stoa.Store.Runs

/-! # What lasts until it is cleared

A commit may set a fact of the table that only certain other commits clear. The
fact then holds until one of these is made; and where it cannot be set while it
holds, one of these lies between any two commits that set it. -/

namespace RowStore

variable {K : Type} {V : K → Type} {C α : Type} [DecidableEq K] {S : Service K V C α}

/-! ## From a state on -/

/-- A step makes one commit, or lets the table drift. -/
theorem Sound.step_commit {Γ : Contract S} {Q : ℕ → C → Post K V α} {s s' : State K V C α} (h : Sound Γ Q s)
    (hs : Step S s s') :
    (s'.history = s.history ∧ (s'.table = s.table ∨ S.drift s.table s'.table)) ∨
      ∃ e, s'.history = e :: s.history ∧ e.before = s.table ∧ e.after = s'.table ∧
        Γ.Move e.call e.before e.after := by
  cases hs with
  | committed i c ops next hi ha =>
      obtain ⟨hmove, -⟩ := ((h.running i c _ hi).1 _ (Γ.refl _) h.inv).2 ha
      exact .inr ⟨_, rfl, rfl, rfl, hmove⟩
  | responseLost i c ops next hi ha hf =>
      obtain ⟨hmove, -⟩ := ((h.running i c _ hi).1 _ (Γ.refl _) h.inv).2 ha
      exact .inr ⟨_, rfl, rfl, rfl, hmove⟩
  | drift t ht => exact .inl ⟨rfl, .inr ht⟩
  | _ => exact .inl ⟨rfl, .inl rfl⟩

/-- What every commit since a state establishes, given the commits before it, holds
of the table. -/
theorem Sound.since {Γ : Contract S} {Q : ℕ → C → Post K V α} {s s' : State K V C α} (h : Sound Γ Q s)
    (hrun : Steps S s s')
    (hstart : ∀ i c t, s.next ≤ i → Γ.Inv t → Γ.Rely s.table t →
      (S.body c).Safe S.faults Γ.toInterference (Γ.Move c) (Q i c) [] t)
    {P : List (Commit K V C) → Table K V → Prop} (hinit : P [] s.table)
    (hcommit : ∀ e H, Γ.Inv e.before → Γ.Move e.call e.before e.after → P H e.before → P (e :: H) e.after)
    (hdrift : ∀ H t u, Γ.Inv t → P H t → S.drift t u → P H u) :
    ∃ H, s'.history = H ++ s.history ∧ P H s'.table := by
  induction hrun with
  | refl => exact ⟨[], rfl, hinit⟩
  | @tail m m' hrun hstep ih =>
      obtain ⟨H, hhistory, hP⟩ := ih
      have hm := (h.steps hrun hstart).1
      rcases hm.step_commit hstep with ⟨hsame, htable | hd⟩ | ⟨e, hcons, hbefore, hafter, hmove⟩
      · exact ⟨H, hsame.trans hhistory, htable ▸ hP⟩
      · exact ⟨H, hsame.trans hhistory, hdrift H _ _ hm.inv hP hd⟩
      · refine ⟨e :: H, by rw [hcons, hhistory, List.cons_append], ?_⟩
        rw [← hafter]
        exact hcommit e H (hbefore ▸ hm.inv) hmove (hbefore ▸ hP)

/-! ## Until it is cleared -/

/-- Which commits set a fact of the table, and which clear it. -/
structure Tenure (Γ : Contract S) where
  Sets : Commit K V C → Prop
  Clears : Commit K V C → Prop
  Holds : Table K V → Prop
  set : ∀ e, Γ.Inv e.before → Γ.Move e.call e.before e.after → Sets e → Holds e.after
  kept : ∀ e, Γ.Inv e.before → Γ.Move e.call e.before e.after → ¬ Clears e → Holds e.before →
    Holds e.after
  drift : ∀ t u, Γ.Inv t → S.drift t u → Holds t → Holds u
  /-- It is not set while it holds. -/
  free : ∀ e, Γ.Inv e.before → Γ.Move e.call e.before e.after → Sets e → ¬ Holds e.before

namespace Tenure

variable {Γ : Contract S} (T : Tenure Γ)

/-- Set, and not cleared since. -/
def Outstanding (H : List (Commit K V C)) : Prop :=
  ∃ later e earlier, H = later ++ e :: earlier ∧ T.Sets e ∧ ∀ d ∈ later, ¬ T.Clears d

/-- Between any two commits that set the fact there is one that clears it. -/
def Alternates (H : List (Commit K V C)) : Prop :=
  ∀ later e between d earlier, H = later ++ e :: (between ++ d :: earlier) → T.Sets e → T.Sets d →
    ∃ c ∈ between, T.Clears c

variable {T} {e : Commit K V C} {H : List (Commit K V C)}

omit [DecidableEq K] in
theorem outstanding_cons :
    T.Outstanding (e :: H) ↔ T.Sets e ∨ (T.Outstanding H ∧ ¬ T.Clears e) := by
  constructor
  · rintro ⟨later, d, earlier, hH, hd, hlater⟩
    cases later with
    | nil =>
        obtain ⟨rfl, rfl⟩ := List.cons.inj hH
        exact .inl hd
    | cons c later =>
        obtain ⟨rfl, rfl⟩ := List.cons.inj hH
        exact .inr ⟨⟨later, d, earlier, rfl, hd, fun x hx => hlater x (List.mem_cons_of_mem _ hx)⟩,
          hlater _ (List.mem_cons_self ..)⟩
  · rintro (he | ⟨⟨later, d, earlier, rfl, hd, hlater⟩, he⟩)
    · exact ⟨[], e, H, rfl, he, by simp⟩
    · refine ⟨e :: later, d, earlier, rfl, hd, fun x hx => ?_⟩
      rcases List.mem_cons.mp hx with rfl | hx
      · exact he
      · exact hlater x hx

omit [DecidableEq K] in
theorem alternates_cons (h : T.Alternates H) (he : T.Sets e → ¬ T.Outstanding H) :
    T.Alternates (e :: H) := by
  intro later x between d earlier hH hx hd
  cases later with
  | nil =>
      obtain ⟨rfl, rfl⟩ := List.cons.inj hH
      by_contra hnone
      exact he hx ⟨between, d, earlier, rfl, hd, fun c hc hclears => hnone ⟨c, hc, hclears⟩⟩
  | cons y later =>
      obtain ⟨rfl, rfl⟩ := List.cons.inj hH
      exact h later x between d earlier rfl hx hd

/-- The rule for whole runs. -/
theorem run {t : Table K V} {s : State K V C α} (h : Reachable S t s) (hinv : Γ.Inv t)
    {Q : C → Post K V α} (hstart : ∀ c u, Γ.Inv u →
      (S.body c).Safe S.faults Γ.toInterference (Γ.Move c) (Q c) [] u) :
    (T.Outstanding s.history → T.Holds s.table) ∧ T.Alternates s.history := by
  have htraced := Reachable.traced (Γ := Γ) h hinv hstart (R := fun _ _ => True)
    (P := fun H u => (T.Outstanding H → T.Holds u) ∧ T.Alternates H) ⟨?_, ?_⟩ ?_ ?_ fun _ _ => trivial
  · exact htraced.1
  · rintro ⟨later, e, earlier, hnil, -⟩
    simp at hnil
  · intro later e between d earlier hnil
    simp at hnil
  · rintro e H hi hmove - ⟨hholds, halternates⟩
    refine ⟨fun hout => ?_, alternates_cons halternates fun hsets hout =>
      T.free e hi hmove hsets (hholds hout)⟩
    rcases outstanding_cons.mp hout with hsets | ⟨hout, hclears⟩
    · exact T.set e hi hmove hsets
    · exact T.kept e hi hmove hclears (hholds hout)
  · rintro H u v hi ⟨hholds, halternates⟩ hd
    exact ⟨fun hout => T.drift u v hi hd (hholds hout), halternates⟩

end Tenure

end RowStore
