import Stoa.Store.Auxiliary
import Stoa.Store.Runs
import Stoa.Verification.Practice.Writes

/-! # Answers and review cards

A card is read, advanced and written back whole. Where every write finds the card
that was read, the card is the fold of all answers that were written. -/

namespace Stoa.Practice

open RowStore

variable {F : Type} [Floating F]

/-- The card of a student and an exercise. -/
def cardOf (t : Table Key (Row F)) (student challenge : String) : Option (Card F) :=
  (t.row (.practice (.card student challenge))).map Owned.item

/-- How many answers are folded into a card. -/
def repsOf (t : Table Key (Row F)) (student challenge : String) : ℕ :=
  (cardOf t student challenge).elim 0 Card.reps

def lapsesOf (t : Table Key (Row F)) (student challenge : String) : ℕ :=
  (cardOf t student challenge).elim 0 Card.lapses

abbrev ReviewCommit (F : Type) := Commit Key (Row F) AnswerRequest

/-- The commit writes the card of the answer. -/
def WritesCard (e : ReviewCommit F) : Bool :=
  repsOf e.after e.call.studentId e.call.challenge.challengeId ≠
    repsOf e.before e.call.studentId e.call.challenge.challengeId

def AnswerRequest.isFor (r : AnswerRequest) (student challenge : String) : Bool :=
  r.studentId = student ∧ r.challenge.challengeId = challenge

/-- The commits that write a card, the latest first. -/
def cardCommits (student challenge : String) (history : List (ReviewCommit F)) :
    List (ReviewCommit F) :=
  history.filter fun e => e.call.isFor student challenge && WritesCard e

/-- The card after some answers, the latest first. -/
def foldAnswers (card : Option (Card F)) (answers : List AnswerRequest) : Option (Card F) :=
  answers.foldr (fun r stored => some (r.fold stored)) card

/-- A card is written as it follows from the one that is stored. -/
def CardCurrent (r : AnswerRequest) :
    Program Key (Row F) (Except Raised (Option (Owned (Card F)))) → Table Key (Row F) → Prop
  | .transact ops _, t => (∃ w ∈ ops, w.key = .practice r.key) →
      Saves r.key (r.fold (cardOf t r.studentId r.challenge.challengeId)) r.studentId ops
  | _, _ => True

/-- A card counts the answers that it was folded from. -/
@[simp] theorem AnswerRequest.reps_fold (r : AnswerRequest) (stored : Option (Card F)) :
    (r.fold stored).reps = stored.elim 0 Card.reps + 1 := by
  cases stored <;> rfl

/-- A wrong answer to a question that was answered before is a lapse. -/
def reviewed (card : Option (Card F)) : Bool := card.any fun card => card.lastReviewedAt.isSome

theorem AnswerRequest.lapses_fold (r : AnswerRequest) (stored : Option (Card F)) :
    (r.fold stored).lapses = stored.elim 0 Card.lapses +
      if reviewed stored = true ∧ r.correct = false then 1 else 0 := by
  cases stored with
  | none =>
      cases hcorrect : r.correct <;>
        simp [AnswerRequest.fold, itemFromState, review, newCard, gradeForAnswer,
          CardState.isNew, reviewed, hcorrect]
  | some card =>
      cases hreviewed : card.lastReviewedAt <;> cases hcorrect : r.correct <;>
        simp [AnswerRequest.fold, itemFromState, review, stateFromItem, gradeForAnswer,
          CardState.isNew, reviewed, hreviewed, hcorrect]

theorem reviewed_foldAnswers (card : Option (Card F)) (answers : List AnswerRequest) :
    reviewed (foldAnswers card answers) = (reviewed card || !answers.isEmpty) := by
  cases answers with
  | nil => simp [foldAnswers]
  | cons r answers => rw [List.isEmpty_cons, Bool.not_false, Bool.or_true]; rfl

theorem reps_foldAnswers (card : Option (Card F)) (answers : List AnswerRequest) :
    (foldAnswers card answers).elim 0 Card.reps = card.elim 0 Card.reps + answers.length := by
  induction answers with
  | nil => rfl
  | cons r answers ih =>
      have hstep : (foldAnswers card (r :: answers)).elim 0 Card.reps =
          (foldAnswers card answers).elim 0 Card.reps + 1 := r.reps_fold _
      rw [hstep, ih, List.length_cons]
      omega

/-- The answers that can be a lapse: all, but for the first of a new card. -/
def repeated (card : Option (Card F)) (answers : List AnswerRequest) : List AnswerRequest :=
  if reviewed card then answers else answers.dropLast

theorem lapses_foldAnswers (card : Option (Card F)) (answers : List AnswerRequest) :
    (foldAnswers card answers).elim 0 Card.lapses = card.elim 0 Card.lapses +
      (repeated card answers).countP fun r => !r.correct := by
  induction answers with
  | nil => simp [foldAnswers, repeated]
  | cons r answers ih =>
      have hstep : (foldAnswers card (r :: answers)).elim 0 Card.lapses =
          (foldAnswers card answers).elim 0 Card.lapses +
            if reviewed (foldAnswers card answers) = true ∧ r.correct = false then 1 else 0 :=
        r.lapses_fold _
      rw [hstep, ih, reviewed_foldAnswers]
      cases hreviewed : reviewed card with
      | true =>
          cases hcorrect : r.correct <;>
            simp [repeated, hreviewed, hcorrect, add_assoc]
      | false =>
          cases answers with
          | nil => simp [repeated, hreviewed]
          | cons r' answers =>
              cases hcorrect : r.correct <;>
                simp [repeated, hreviewed, hcorrect, add_assoc]

/-! ## The invariant -/

/-- What every step keeps: `true` stands for a call that has written its card. -/
structure Folded (t : Table Key (Row F)) (w : View Key (Row F) AnswerRequest)
    (g : ℕ → Option (AnswerRequest × Bool)) : Prop where
  cards : ∀ student challenge, cardOf w.table student challenge =
    foldAnswers (cardOf t student challenge) ((cardCommits student challenge w.history).map Commit.call)
  unsaved : ∀ i r, g i = some (r, false) → ∀ e ∈ w.history, WritesCard e → e.id ≠ i
  saved : ∀ i r, g i = some (r, true) → ∃ e ∈ w.history, e.id = i ∧ e.call = r ∧ WritesCard e
  once : ((w.history.filter WritesCard).map Commit.id).Nodup

section

variable {t : Table Key (Row F)} {w : View Key (Row F) AnswerRequest}
  {g : ℕ → Option (AnswerRequest × Bool)} {i : ℕ} {r : AnswerRequest}
  {ops : List (Write Key (Row F))}

theorem Folded.initial : Folded t ⟨t, 0, []⟩ fun _ => none where
  cards := fun _ _ => rfl
  unsaved := by simp
  saved := by simp
  once := by simp

theorem Folded.remove (h : Folded t w g) (i : ℕ) : Folded t w (Function.update g i none) where
  cards := h.cards
  unsaved := fun j r hj => by
    by_cases hji : j = i
    · simp [hji] at hj
    · exact h.unsaved j r (by rwa [Function.update_of_ne hji] at hj)
  saved := fun j r hj => by
    by_cases hji : j = i
    · simp [hji] at hj
    · exact h.saved j r (by rwa [Function.update_of_ne hji] at hj)
  once := h.once

theorem Folded.start (h : Folded t w g) (hi : ∀ e ∈ w.history, e.id ≠ i) :
    Folded t w (Function.update g i (some (r, false))) where
  cards := h.cards
  unsaved := fun j r' hj e he hw => by
    by_cases hji : j = i
    · exact hji ▸ hi e he
    · exact h.unsaved j r' (by rwa [Function.update_of_ne hji] at hj) e he hw
  saved := fun j r' hj => by
    by_cases hji : j = i
    · simp [hji] at hj
    · exact h.saved j r' (by rwa [Function.update_of_ne hji] at hj)
  once := h.once

/-- A commit that leaves all cards alone. -/
theorem Folded.frame (h : Folded t w g) (hcards : ∀ student challenge,
    cardOf (w.table.apply ops) student challenge = cardOf w.table student challenge) :
    Folded t (w.commit i r ops) g := by
  have hquiet : WritesCard (⟨i, r, w.clock, w.table, w.table.apply ops⟩ : ReviewCommit F) = false := by
    simp [WritesCard, repsOf, hcards]
  have hcommits : ∀ student challenge, cardCommits student challenge (w.commit i r ops).history =
      cardCommits student challenge w.history := fun student challenge => by
    simp [cardCommits, hquiet]
  refine ⟨fun student challenge => ?_, fun j r' hj e he hw => ?_, fun j r' hj => ?_, ?_⟩
  · rw [hcommits]
    exact (hcards student challenge).trans (h.cards student challenge)
  · rcases List.mem_cons.mp he with rfl | he
    · exact absurd hw (by simp [hquiet])
    · exact h.unsaved j r' hj e he hw
  · obtain ⟨e, he, hrest⟩ := h.saved j r' hj
    exact ⟨e, List.mem_cons_of_mem _ he, hrest⟩
  · simpa [hquiet] using h.once

/-- A commit that folds an answer into its card. -/
theorem Folded.write (h : Folded t w g) (hi : g i = some (r, false))
    (hcard : cardOf (w.table.apply ops) r.studentId r.challenge.challengeId =
      some (r.fold (cardOf w.table r.studentId r.challenge.challengeId)))
    (hothers : ∀ student challenge, r.isFor student challenge = false →
      cardOf (w.table.apply ops) student challenge = cardOf w.table student challenge) :
    Folded t (w.commit i r ops) (Function.update g i (some (r, true))) := by
  have hwrites : WritesCard (⟨i, r, w.clock, w.table, w.table.apply ops⟩ : ReviewCommit F) = true := by
    simp [WritesCard, repsOf, hcard]
  refine ⟨fun student challenge => ?_, fun j r' hj e he hw => ?_, fun j r' hj => ?_, ?_⟩
  · cases hfor : r.isFor student challenge with
    | true =>
        obtain ⟨rfl, rfl⟩ : r.studentId = student ∧ r.challenge.challengeId = challenge := by
          simpa [AnswerRequest.isFor] using hfor
        have hcommits : cardCommits r.studentId r.challenge.challengeId (w.commit i r ops).history =
            ⟨i, r, w.clock, w.table, w.table.apply ops⟩ ::
              cardCommits r.studentId r.challenge.challengeId w.history := by
          simp [cardCommits, hwrites, AnswerRequest.isFor]
        rw [hcommits, List.map_cons]
        exact hcard.trans (congrArg (fun card => some (r.fold card)) (h.cards _ _))
    | false =>
        have hcommits : cardCommits student challenge (w.commit i r ops).history =
            cardCommits student challenge w.history := by
          simp [cardCommits, hfor]
        rw [hcommits]
        exact (hothers student challenge hfor).trans (h.cards student challenge)
  · by_cases hji : j = i
    · simp [hji] at hj
    · rw [Function.update_of_ne hji] at hj
      rcases List.mem_cons.mp he with rfl | he
      · exact Ne.symm hji
      · exact h.unsaved j r' hj e he hw
  · by_cases hji : j = i
    · subst hji
      rw [Function.update_self] at hj
      cases hj
      exact ⟨_, List.mem_cons_self .., rfl, rfl, hwrites⟩
    · rw [Function.update_of_ne hji] at hj
      obtain ⟨e, he, hrest⟩ := h.saved j r' hj
      exact ⟨e, List.mem_cons_of_mem _ he, hrest⟩
  · rw [View.history_commit, List.filter_cons_of_pos hwrites, List.map_cons, List.nodup_cons]
    refine ⟨fun hmem => ?_, h.once⟩
    obtain ⟨e, he, hid⟩ := List.mem_map.mp hmem
    obtain ⟨he, hw⟩ := List.mem_filter.mp he
    exact h.unsaved i r hi e he hw hid

/-! ## What a call commits -/

section

variable {u : Table Key (Row F)} {student challenge : String} {item : Card F} {generation : ℤ}

omit [Floating F] in
theorem Saves.otherCards (h : Saves r.key item r.studentId ops)
    (hfor : r.isFor student challenge = false) :
    cardOf (u.apply ops) student challenge = cardOf u student challenge := by
  have hne : ¬ (r.studentId = student ∧ r.challenge.challengeId = challenge) := by
    simpa [AnswerRequest.isFor] using hfor
  have hkey : Key.practice (.card student challenge) ≠ .practice r.key := fun he => by
    cases he
    exact hne ⟨rfl, rfl⟩
  exact congrArg (Option.map Owned.item) (h.others hkey)

end

variable {faults : Faults}

/-- What is known when a call returns: one that answers a card has written it. -/
def CardWritten (r : AnswerRequest) (a : Except Raised (Option (Owned (Card F))))
    (x : AnswerRequest × Bool) : Prop :=
  ∀ card, a = .ok (some card) → x = (r, true)

omit [Floating F] in
theorem AnswerRequest.submits_studyDay (r : AnswerRequest) :
    (attemptOr (recordStudyDay r.studentId r.day "practice" r.answeredAt) fun _ => return () :
      Handler F Unit).run.Submits
        (Saves (.studyDay r.studentId r.day) (⟨r.day, "practice", r.answeredAt⟩ : StudyDay)
          r.studentId) :=
  RowStore.Handler.submits_tryCatch
    (RowStore.Handler.submits_bind submits_save fun _ => trivial) fun _ => trivial

theorem keeps_foldCard :
    (attemptOr (do
      let stored ← get (.practice (.card r.studentId r.challenge.challengeId))
      let card := r.fold (stored.map Owned.item)
      some <$> save (.card r.studentId r.challenge.challengeId) card r.studentId)
      fun _ => return none : Handler F (Option (Owned (Card F)))).run.Keeps faults (Folded t)
        (CardCurrent r) i r (CardWritten r) (r, false) := by
  have hnone : ∀ x, CardWritten r (.ok none : Except Raised (Option (Owned (Card F)))) x :=
    fun x card h => by cases h
  refine RowStore.Handler.keeps_tryCatch (RowStore.Handler.keeps_get_bind (fun stored => ?_)
    (hnone _))
  refine RowStore.Handler.keeps_map (keeps_save (k := r.key) (y := (r, true)) (fun e z => hnone z)
    (fun a card _ => rfl) fun ops next w g hops hg hi ha hc => ?_)
  have hcurrent : Saves r.key (r.fold (cardOf w.table r.studentId r.challenge.challengeId))
      r.studentId ops := hc hops.names
  exact hg.write hi (hcurrent.stores ha) fun student challenge hfor => hcurrent.otherCards hfor

theorem keeps_recordAnswer : (recordAnswer r : Handler F _).run.Keeps faults (Folded t)
    (CardCurrent r) i r (CardWritten r) (r, false) := by
  unfold recordAnswer
  split
  · exact fun card h => by cases h
  · refine RowStore.Handler.keeps_bind (Program.Submits.keeps
      r.submits_studyDay (fun a => ?_)
      fun ops next w g hops hg _ _ _ => ?_)
    · cases a with
      | ok _ => exact keeps_foldCard
      | error e => exact fun card h => by cases h
    · exact hg.frame fun student challenge =>
        congrArg (Option.map Owned.item) (hops.others fun he => by cases he)

end

/-! ## Every run -/

theorem recordAnswer_folded {faults : Faults} {t : Table Key (Row F)}
    {s : State Key (Row F) AnswerRequest (Except Raised (Option (Owned (Card F))))}
    (h : StepsMeeting (reviewService F faults) CardCurrent (.initial t) s) :
    ∃ g, Kept faults (Folded t) CardCurrent CardWritten s g := by
  refine h.kept (S := reviewService F faults) Folded.initial (fun w g i hw => hw.remove i)
    (fun w g u hw hdrift => ?_) (fun w g n hw _ => ?_) fun c w g i hw _ hnew _ => ?_
  · exact { hw with cards := fun student challenge =>
      (congrArg (Option.map Owned.item) (hdrift student challenge)).trans (hw.cards student challenge) }
  · exact { hw with }
  · exact ⟨(c, false), hw.start hnew, keeps_recordAnswer⟩

section

variable {faults : Faults} {t : Table Key (Row F)}
  {s : State Key (Row F) AnswerRequest (Except Raised (Option (Owned (Card F))))}

omit [Floating F] in
/-- The card commits of calls that have all returned are those calls, once each. -/
theorem cardCommits_perm (hbooked : s.Booked) (honce : ((s.history.filter WritesCard).map Commit.id).Nodup)
    {student challenge : String}
    (hrunning : ∀ i c p, s.running i = some (c, p) → c.isFor student challenge = false)
    (hwritten : ∀ r ∈ s.returned, r.call.isFor student challenge = true →
      ∃ e ∈ s.history, e.id = r.id ∧ WritesCard e = true) :
    ((cardCommits student challenge s.history).map fun e => (e.id, e.call)).Perm
      ((s.returned.filter fun r => r.call.isFor student challenge).map fun r => (r.id, r.call)) := by
  refine (List.perm_ext_iff_of_nodup ?_ ?_).mpr fun x => ⟨fun hx => ?_, fun hx => ?_⟩
  · refine List.Nodup.of_map Prod.fst ?_
    rw [List.map_map, cardCommits, ← List.filter_filter]
    exact (List.filter_sublist.map _).nodup honce
  · refine List.Nodup.of_map Prod.fst ?_
    rw [List.map_map]
    exact (List.filter_sublist.map _).nodup hbooked.returned_once
  · obtain ⟨e, he, rfl⟩ := List.mem_map.mp hx
    obtain ⟨he, hboth⟩ := List.mem_filter.mp he
    obtain ⟨hfor, hw⟩ := Bool.and_eq_true_iff.mp hboth
    rcases hbooked.committed e he with ⟨p, hp⟩ | ⟨r, hr, hid, hcall⟩
    · cases (hrunning _ _ _ hp).symm.trans hfor
    · exact List.mem_map.mpr ⟨r, List.mem_filter.mpr ⟨hr, hcall ▸ hfor⟩, by rw [hid, hcall]⟩
  · obtain ⟨r, hr, rfl⟩ := List.mem_map.mp hx
    obtain ⟨hr, hfor⟩ := List.mem_filter.mp hr
    obtain ⟨e, he, hid, hw⟩ := hwritten r hr hfor
    have hcall : e.call = r.call := by
      rcases hbooked.committed e he with ⟨p, hp⟩ | ⟨r', hr', hid', hcall⟩
      · cases (hid ▸ (hbooked.ended r hr).1).symm.trans hp
      · rw [← hcall, List.inj_on_of_nodup_map hbooked.returned_once hr' hr (hid'.trans hid)]
    refine List.mem_map.mpr ⟨e, List.mem_filter.mpr ⟨he, ?_⟩, by rw [hid, hcall]⟩
    rw [hcall, hw, hfor]
    rfl

theorem answers_reach_card (h : StepsMeeting (reviewService F faults) CardCurrent (.initial t) s) :
    (∀ r ∈ s.returned, ∀ card, r.result = .ok (some card) →
      ∃ e ∈ s.history, e.id = r.id ∧ e.call = r.call ∧ WritesCard e = true) ∧
    ∀ student challenge,
      (∀ i c p, s.running i = some (c, p) → c.isFor student challenge = false) →
      (∀ r ∈ s.returned, r.call.isFor student challenge = true →
        ∃ e ∈ s.history, e.id = r.id ∧ WritesCard e = true) →
      ∃ answers : List AnswerRequest, answers.Perm
          ((s.returned.filter fun r => r.call.isFor student challenge).map Return.call) ∧
        cardOf s.table student challenge = foldAnswers (cardOf t student challenge) answers ∧
        repsOf s.table student challenge = repsOf t student challenge + answers.length ∧
        lapsesOf s.table student challenge = lapsesOf t student challenge +
          (repeated (cardOf t student challenge) answers).countP fun r => !r.correct := by
  obtain ⟨g, hg⟩ := recordAnswer_folded h
  refine ⟨fun r hr card hcard => ?_, fun student challenge hrunning hwritten => ?_⟩
  · obtain ⟨w, g', x, hw, hx, hq, -, hsuffix⟩ := hg.returned r hr
    obtain ⟨e, he, hrest⟩ := hw.saved r.id r.call (hx.trans (congrArg some (hq card hcard)))
    exact ⟨e, hsuffix.subset he, hrest⟩
  · have hperm := cardCommits_perm (Reachable.booked h.steps) hg.holds.once hrunning hwritten
    have hcards := hg.holds.cards student challenge
    refine ⟨(cardCommits student challenge s.history).map Commit.call, ?_, hcards, ?_, ?_⟩
    · simpa [Function.comp_def] using hperm.map Prod.snd
    · exact (congrArg (fun card => Option.elim card 0 Card.reps) hcards).trans (reps_foldAnswers _ _)
    · exact (congrArg (fun card => Option.elim card 0 Card.lapses) hcards).trans
        (lapses_foldAnswers _ _)

end

/-! ## Answers one after another, and two at once -/

theorem AnswerRequest.aloneMeets (r : AnswerRequest) (t : Table Key (Row F)) :
    (recordAnswer r : Handler F _).run.AloneMeets (CardCurrent r) t := by
  have hsave : ∀ u : Table Key (Row F), (attemptOr (do
      let stored ← get (.practice (.card r.studentId r.challenge.challengeId))
      let card := r.fold (stored.map Owned.item)
      some <$> save (.card r.studentId r.challenge.challengeId) card r.studentId)
      fun _ => return none : Handler F (Option (Owned (Card F)))).run.AloneMeets (CardCurrent r) u := by
    intro u
    refine Program.aloneMeets_bind (RowStore.Handler.aloneMeets_get_bind
      (Program.aloneMeets_bind (aloneMeets_save (k := r.key) ?_) ?_)) ?_
    · exact fun ops next hops _ => hops
    · split <;> trivial
    · split <;> trivial
  unfold recordAnswer
  split
  · trivial
  · refine Program.aloneMeets_bind (Program.Submits.aloneMeets r.submits_studyDay
      (fun ops next u hops hcard => ?_) t) ?_
    · obtain ⟨w, hw, hkey⟩ := hcard
      rcases hops.key_of_mem hw with hw | hw <;> cases hkey.symm.trans hw
    · generalize (Program.alone _ t).1 = result
      cases result with
      | ok _ => exact hsave _
      | error e => trivial

/-! The program runs the scheduler on floating-point numbers. -/

def roundHalfEven (x : Float) : ℤ :=
  let below := x.floor.toInt64.toInt
  if x - x.floor < 0.5 then below
  else if 0.5 < x - x.floor then below + 1
  else if below % 2 = 0 then below else below + 1

instance : Floating Float where
  ofInt := Float.ofInt
  le x y := x ≤ y
  exp := Float.exp
  pow := Float.pow
  round := roundHalfEven
  decimal x := Float.ofInt (roundHalfEven (x * 1000000)) / 1000000

namespace ReviewSample

def answer (correct : Bool) (answeredAt : Instant) : AnswerRequest where
  studentId := "student"
  challenge := ⟨"exercise", "lesson", "subject", "topic", ""⟩
  correct := correct
  answeredAt := answeredAt
  day := "2026-03-01"

def start : Table Key (Row Float) :=
  Table.empty.apply [.putNew (.accountFence "student") ⟨"active", some 1⟩]

abbrev Run := State Key (Row Float) AnswerRequest (Except Raised (Option (Owned (Card Float))))

def service : Service Key (Row Float) AnswerRequest (Except Raised (Option (Owned (Card Float)))) :=
  reviewService Float .strongReads

/-- A right answer, and later a wrong one. -/
def answered : Run :=
  ((State.initial start).solo service (answer true 0) []).solo service (answer false 5) []

theorem answered_meeting : StepsMeeting service CardCurrent (.initial start) answered :=
  .solo (.solo .refl trivial (AnswerRequest.aloneMeets _ _)) trivial (AnswerRequest.aloneMeets _ _)

/-- The second answer comes between the read of the first and its write. -/
def overtaken : Run :=
  ((((State.initial start).launch service (answer true 0)).advance 0 4).solo service
    (answer false 5) []).advance 0 3

theorem overtaken_reachable : Reachable service start overtaken :=
  .trans (State.launch_steps trivial) (.trans (State.advance_steps 0 4 _)
    (.trans (State.solo_steps (S := service) trivial trivial trivial []) (State.advance_steps 0 3 _)))

end ReviewSample

theorem answers_reach_card_sample : ∃ answers : List AnswerRequest,
    answers.Perm ((ReviewSample.answered.returned.filter fun r =>
      r.call.isFor "student" "exercise").map Return.call) ∧
    cardOf ReviewSample.answered.table "student" "exercise" =
      foldAnswers (cardOf ReviewSample.start "student" "exercise") answers ∧
    repsOf ReviewSample.answered.table "student" "exercise" =
      repsOf ReviewSample.start "student" "exercise" + answers.length ∧
    lapsesOf ReviewSample.answered.table "student" "exercise" =
      lapsesOf ReviewSample.start "student" "exercise" +
        (repeated (cardOf ReviewSample.start "student" "exercise") answers).countP fun r => !r.correct :=
  (answers_reach_card ReviewSample.answered_meeting).2 "student" "exercise"
    (fun i c p hi => by
      have hnone := (Reachable.booked ReviewSample.answered_meeting.steps).idle (by decide +kernel) i
      cases hnone.symm.trans hi)
    (by decide +kernel)

/-- Two answers have both returned a card, and one of them is in it. -/
theorem answer_overwritten : ∃ s, Reachable ReviewSample.service ReviewSample.start s ∧
    (∀ i, s.running i = none) ∧
    s.returned.map (fun r => (r.call.isFor "student" "exercise",
      match r.result with
      | .ok (some _) => true
      | _ => false)) = [(true, true), (true, true)] ∧
    repsOf ReviewSample.start "student" "exercise" = 0 ∧
    repsOf s.table "student" "exercise" = 1 :=
  ⟨ReviewSample.overtaken, ReviewSample.overtaken_reachable,
    (Reachable.booked ReviewSample.overtaken_reachable).idle (by decide +kernel), by decide +kernel⟩

end Stoa.Practice
