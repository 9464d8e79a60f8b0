import Stoa.Model.AnswerJudging

/-! # Answers that are lists

A list is judged by its normal forms, joined with bars. What the bars do not say is
which of them stood in an item, and whether there was a list at all. -/

namespace Stoa.AnswerJudging

open PyText

variable (unicode : Unicode)

def Answer.isList : Answer → Bool
  | .text _ => false
  | .list _ => true

/-- The normal forms of the texts of an answer. -/
def forms : Answer → Except Decimal.Signal (List Str)
  | .text s => (fun t => [t]) <$> normalizeAnswer unicode s
  | .list items => items.mapM (normalizeAnswer unicode)

/-- The texts have the same normal form. -/
def SameForm (s t : Str) : Prop :=
  ∃ form, normalizeAnswer unicode s = .ok form ∧ normalizeAnswer unicode t = .ok form

/-- The texts of a submission are those of a key, up to how they are written. -/
def Agree : Answer → Answer → Prop
  | .text s, .text t => SameForm unicode s t
  | .list items, .list keys => List.Forall₂ (SameForm unicode) items keys
  | _, _ => False

/-- Nothing is submitted. -/
def Blank : Answer → Prop
  | .text s => normalizeAnswer unicode s = .ok []
  | .list items => ∀ item ∈ items, normalizeAnswer unicode item = .ok []

def Right (submitted key : Answer) : Prop := Agree unicode submitted key ∧ ¬ Blank unicode submitted

/-- An answer is right exactly when it agrees with one of the keys, item by item. -/
def JudgedByItems (submitted correctAnswer : Answer) (acceptedAnswers : List Answer) : Prop :=
  judge unicode submitted correctAnswer acceptedAnswers = .ok true ↔
    ∃ key ∈ correctAnswer :: acceptedAnswers, Right unicode submitted key

/-! ## The runs between bars -/

/-- What stands between the bars of a joined list. -/
def runs (fs : List Str) : List Str := if fs = [] then [[]] else fs.flatMap (·.splitOn 124)

theorem splitOn_join_eq_runs (fs : List Str) : (join [124] fs).splitOn 124 = runs fs := by
  unfold runs
  split
  · rename_i hnil
    rw [hnil]
    rfl
  · rename_i hne
    exact splitOn_join hne

theorem join_eq_iff_runs {fs gs : List Str} : join [124] fs = join [124] gs ↔ runs fs = runs gs := by
  rw [← splitOn_join_eq_runs, ← splitOn_join_eq_runs]
  exact ⟨fun h => by rw [h], splitOn_injective⟩

theorem join_eq_nil_iff {fs : List Str} : join [124] fs = [] ↔ runs fs = [[]] := by
  have hiff : join [124] fs = join [124] [] ↔ runs fs = runs [] := join_eq_iff_runs
  exact hiff

/-- The bars of every item and the runs between all of them are the whole list. -/
theorem eq_of_flatMap_splitOn {fs gs : List Str} (hcount : fs.map (·.count 124) = gs.map (·.count 124))
    (h : fs.flatMap (·.splitOn 124) = gs.flatMap (·.splitOn 124)) : fs = gs := by
  induction fs generalizing gs with
  | nil =>
      cases gs with
      | nil => rfl
      | cons g gs => cases hcount
  | cons f fs ih =>
      cases gs with
      | nil => cases hcount
      | cons g gs =>
          simp only [List.map_cons, List.cons.injEq] at hcount
          have hlength : (f.splitOn 124).length = (g.splitOn 124).length := by
            rw [length_splitOn, length_splitOn, hcount.1]
          obtain ⟨hhead, htail⟩ := List.append_inj h hlength
          rw [splitOn_injective hhead, ih hcount.2 htail]

theorem eq_of_runs {fs gs : List Str} (hcount : fs.map (·.count 124) = gs.map (·.count 124))
    (h : runs fs = runs gs) : fs = gs := by
  have hnil : fs = [] ↔ gs = [] := by
    rw [← List.map_eq_nil_iff, hcount, List.map_eq_nil_iff]
  by_cases hfs : fs = []
  · rw [hfs, hnil.mp hfs]
  · have hgs : gs ≠ [] := fun hgs => hfs (hnil.mpr hgs)
    rw [runs, if_neg hfs, runs, if_neg hgs] at h
    exact eq_of_flatMap_splitOn hcount h

/-! ## Agreement in terms of normal forms -/

variable {unicode}

theorem mapM_eq_ok_iff {items : List Str} {fs : List Str} :
    items.mapM (normalizeAnswer unicode) = .ok fs ↔ List.Forall₂ (fun s f => normalizeAnswer unicode s = .ok f) items fs := by
  induction items generalizing fs with
  | nil =>
      rw [List.mapM_nil, List.forall₂_nil_left_iff]
      exact ⟨fun h => by cases h; rfl, fun h => by rw [h]; rfl⟩
  | cons s items ih =>
      rw [List.mapM_cons, List.forall₂_cons_left_iff]
      constructor
      · intro h
        cases hs : normalizeAnswer unicode s with
        | error e =>
            rw [hs] at h
            cases h
        | ok f =>
            rw [hs] at h
            cases hitems : items.mapM (normalizeAnswer unicode) with
            | error e =>
                rw [hitems] at h
                cases h
            | ok gs =>
                rw [hitems] at h
                cases h
                exact ⟨f, gs, rfl, ih.mp hitems, rfl⟩
      · rintro ⟨f, gs, hs, hitems, rfl⟩
        rw [hs, ih.mpr hitems]
        rfl

theorem forall₂_sameForm {items keys : List Str} :
    List.Forall₂ (SameForm unicode) items keys ↔
      ∃ fs, items.mapM (normalizeAnswer unicode) = .ok fs ∧ keys.mapM (normalizeAnswer unicode) = .ok fs := by
  simp only [mapM_eq_ok_iff]
  constructor
  · intro h
    induction h with
    | nil => exact ⟨[], .nil, .nil⟩
    | cons hsame _ ih =>
        obtain ⟨f, hs, ht⟩ := hsame
        obtain ⟨fs, hitems, hkeys⟩ := ih
        exact ⟨f :: fs, .cons hs hitems, .cons ht hkeys⟩
  · rintro ⟨fs, hitems, hkeys⟩
    induction hitems generalizing keys with
    | nil =>
        cases hkeys
        exact .nil
    | cons hs _ ih =>
        cases hkeys with
        | cons ht hkeys => exact .cons ⟨_, hs, ht⟩ (ih hkeys)

theorem forms_text {s : Str} {fs : List Str} :
    forms unicode (.text s) = .ok fs ↔ ∃ f, normalizeAnswer unicode s = .ok f ∧ fs = [f] := by
  cases hs : normalizeAnswer unicode s with
  | error e => simp [forms, hs]
  | ok f => simp [forms, hs, eq_comm]

theorem agree_iff {a b : Answer} :
    Agree unicode a b ↔ a.isList = b.isList ∧ ∃ fs, forms unicode a = .ok fs ∧ forms unicode b = .ok fs := by
  cases a with
  | text s =>
      cases b with
      | text t =>
          simp only [Agree, SameForm, Answer.isList, forms_text, true_and]
          constructor
          · rintro ⟨f, hs, ht⟩
            exact ⟨[f], ⟨f, hs, rfl⟩, ⟨f, ht, rfl⟩⟩
          · rintro ⟨fs, ⟨f, hs, rfl⟩, ⟨g, ht, hfg⟩⟩
            cases hfg
            exact ⟨f, hs, ht⟩
      | list keys => simp [Agree, Answer.isList]
  | list items =>
      cases b with
      | text t => simp [Agree, Answer.isList]
      | list keys => simpa [Agree, Answer.isList, forms] using forall₂_sameForm

theorem blank_iff {a : Answer} : Blank unicode a ↔ ∃ fs, forms unicode a = .ok fs ∧ ∀ f ∈ fs, f = [] := by
  cases a with
  | text s => simp [Blank, forms_text]
  | list items =>
      simp only [Blank, forms, mapM_eq_ok_iff]
      constructor
      · intro h
        induction items with
        | nil => exact ⟨[], .nil, by simp⟩
        | cons s items ih =>
            obtain ⟨fs, hfs, hall⟩ := ih fun item hitem => h item (List.mem_cons_of_mem _ hitem)
            exact ⟨[] :: fs, .cons (h s (List.mem_cons_self ..)) hfs, by simpa using hall⟩
      · rintro ⟨fs, hfs, hall⟩
        induction hfs with
        | nil => simp
        | cons hs _ ih =>
            simp only [List.mem_cons, forall_eq_or_imp] at hall ⊢
            exact ⟨hall.1 ▸ hs, ih hall.2⟩

/-! ## What is judged -/

theorem normalized_eq (a : Answer) : normalized unicode a = join [124] <$> forms unicode a := by
  cases a with
  | list items => rfl
  | text s =>
      cases hs : normalizeAnswer unicode s with
      | error e => simp [normalized, forms, hs]
      | ok f => simp [normalized, forms, hs, join]

variable (unicode)

/-- The keys in front of one whose normal form cannot be computed. -/
def readKeys (keys : List Answer) : List Answer := keys.takeWhile fun key => (forms unicode key).isOk

/-- What is submitted and a key have the same runs, and there is something in them. -/
def SameRuns (submitted key : Answer) : Prop :=
  ∃ fs gs, forms unicode submitted = .ok fs ∧ forms unicode key = .ok gs ∧ runs fs = runs gs ∧ runs fs ≠ [[]]

variable {unicode}

theorem anyM_eq_true {answer : Str} {keys : List Answer} :
    (keys.anyM fun key => do return decide (answer = (← normalized unicode key)) : Except Decimal.Signal Bool) = .ok true ↔
      ∃ key ∈ readKeys unicode keys, normalized unicode key = .ok answer := by
  induction keys with
  | nil => simp [List.anyM, readKeys, pure, Except.pure]
  | cons key keys ih =>
      rw [List.anyM, normalized_eq]
      unfold readKeys at ih ⊢
      cases hkey : forms unicode key with
      | error e => simp [hkey, Except.isOk, Except.toBool, bind, Except.bind]
      | ok fs =>
          by_cases hsame : answer = join [124] fs
          · simp [hkey, hsame, Except.isOk, Except.toBool, bind, Except.bind, pure, Except.pure, normalized_eq]
          · have hne : ¬ join [124] fs = answer := fun h => hsame h.symm
            simpa [hkey, hsame, hne, Except.isOk, Except.toBool, bind, Except.bind, pure, Except.pure,
              normalized_eq] using ih

/-- A submission is right for what is read of the keys. -/
theorem judge_eq_true {submitted correctAnswer : Answer} {acceptedAnswers : List Answer} :
    judge unicode submitted correctAnswer acceptedAnswers = .ok true ↔
      ∃ key ∈ readKeys unicode (correctAnswer :: acceptedAnswers), SameRuns unicode submitted key := by
  have hsame : ∀ fs, forms unicode submitted = .ok fs → join [124] fs ≠ [] → ∀ key,
      (normalized unicode key = .ok (join [124] fs) ↔ SameRuns unicode submitted key) := by
    intro fs hfs hne key
    have hruns : runs fs ≠ [[]] := fun h => hne (join_eq_nil_iff.mpr h)
    rw [normalized_eq]
    unfold SameRuns
    cases hkey : forms unicode key with
    | error e => simp
    | ok gs =>
        simp only [hfs, Except.ok.injEq, exists_and_left, exists_eq_left']
        refine ⟨fun h => ⟨join_eq_iff_runs.mp (Except.ok.inj h).symm, hruns⟩, fun h => ?_⟩
        exact congrArg _ (join_eq_iff_runs.mpr h.1).symm
  unfold judge
  rw [normalized_eq]
  cases hforms : forms unicode submitted with
  | error e => simp [SameRuns, hforms, bind, Except.bind]
  | ok fs =>
      change (if join [124] fs = [] then Except.ok false else _) = _ ↔ _
      split
      · rename_i hnil
        have hruns : runs fs = [[]] := join_eq_nil_iff.mp hnil
        simp [SameRuns, hforms, hruns]
      · rename_i hne
        refine anyM_eq_true.trans (exists_congr fun key => and_congr_right fun _ => ?_)
        exact hsame fs hforms hne key

/-! ## Mistaken answers -/

variable (unicode)

/-- How many bars there are in every item. -/
def bars (a : Answer) : Except Decimal.Signal (List ℕ) := List.map (·.count 124) <$> forms unicode a

/-- What is submitted is taken for a key of the other kind, for one with other bars in its
items, or for one that is as blank. -/
structure MistakenFor (submitted key : Answer) : Prop where
  runs : SameRuns unicode submitted key
  cut : submitted.isList ≠ key.isList ∨ bars unicode submitted ≠ bars unicode key ∨ Blank unicode submitted

/-- No key that is read is mistaken for one that agrees, and one that agrees is read. -/
structure KeysDecide (submitted : Answer) (keys : List Answer) : Prop where
  mistaken : ∀ key ∈ readKeys unicode keys, MistakenFor unicode submitted key → ∃ key' ∈ keys, Right unicode submitted key'
  read : ∀ key ∈ keys, Right unicode submitted key → ∃ key' ∈ readKeys unicode keys, SameRuns unicode submitted key'

variable {unicode}

theorem runs_ne_blank {fs : List Str} (h : ∃ f ∈ fs, f ≠ []) : runs fs ≠ [[]] := by
  obtain ⟨f, hf, hne⟩ := h
  intro hruns
  have hjoin : join [124] fs = [] := join_eq_nil_iff.mpr hruns
  cases fs with
  | nil => cases hf
  | cons g rest =>
      cases rest with
      | nil =>
          cases List.mem_singleton.mp hf
          exact hne hjoin
      | cons h rest => simp [join] at hjoin

/-- Where the runs are the same, only a mistaken key does not agree. -/
theorem SameRuns.right_or {submitted key : Answer} (h : SameRuns unicode submitted key) :
    Right unicode submitted key ∨ MistakenFor unicode submitted key := by
  by_cases hblank : Blank unicode submitted
  · exact .inr ⟨h, .inr (.inr hblank)⟩
  · by_cases hagree : Agree unicode submitted key
    · exact .inl ⟨hagree, hblank⟩
    · refine .inr ⟨h, ?_⟩
      by_contra hcut
      push Not at hcut
      obtain ⟨hlist, hbars, -⟩ := hcut
      obtain ⟨fs, gs, hfs, hgs, hruns, -⟩ := h
      rw [bars, hfs, bars, hgs] at hbars
      have heq : fs = gs := eq_of_runs (Except.ok.inj hbars) hruns
      exact hagree (agree_iff.mpr ⟨hlist, fs, hfs, heq ▸ hgs⟩)

theorem MistakenFor.not_right {submitted key : Answer} (h : MistakenFor unicode submitted key) :
    ¬ Right unicode submitted key := by
  rintro ⟨hagree, hblank⟩
  obtain ⟨hlist, fs, hfs, hgs⟩ := agree_iff.mp hagree
  rcases h.cut with hkind | hbars | hnothing
  · exact hkind hlist
  · exact hbars (by rw [bars, bars, hfs, hgs])
  · exact hblank hnothing

theorem Right.sameRuns {submitted key : Answer} (h : Right unicode submitted key) : SameRuns unicode submitted key := by
  obtain ⟨hagree, hblank⟩ := h
  obtain ⟨-, fs, hfs, hgs⟩ := agree_iff.mp hagree
  refine ⟨fs, fs, hfs, hgs, rfl, runs_ne_blank ?_⟩
  by_contra hnone
  push Not at hnone
  exact hblank (blank_iff.mpr ⟨fs, hfs, hnone⟩)

theorem judged_by_items_iff (unicode : Unicode) (submitted correctAnswer : Answer) (acceptedAnswers : List Answer) :
    JudgedByItems unicode submitted correctAnswer acceptedAnswers ↔
      KeysDecide unicode submitted (correctAnswer :: acceptedAnswers) := by
  unfold JudgedByItems
  rw [judge_eq_true]
  constructor
  · intro h
    refine ⟨fun key hkey hmistaken => h.mp ⟨key, hkey, hmistaken.runs⟩, fun key hkey hright => ?_⟩
    exact h.mpr ⟨key, hkey, hright⟩
  · intro h
    constructor
    · rintro ⟨key, hkey, hruns⟩
      rcases hruns.right_or with hright | hmistaken
      · exact ⟨key, (List.takeWhile_sublist _).mem hkey, hright⟩
      · exact h.mistaken key hkey hmistaken
    · rintro ⟨key, hkey, hright⟩
      exact h.read key hkey hright

/-- Two items are taken for one item with a bar in it. -/
theorem two_items_judged_as_one :
    ¬ JudgedByItems .ascii (.list [str "a", str "b"]) (.list [str "a|b"]) [] := by
  have hjudge : judge .ascii (.list [str "a", str "b"]) (.list [str "a|b"]) [] = .ok true := by decide +kernel
  intro h
  obtain ⟨key, hkey, hagree, -⟩ := h.mp hjudge
  cases List.mem_singleton.mp hkey
  exact absurd hagree.length_eq (by decide)

end Stoa.AnswerJudging
