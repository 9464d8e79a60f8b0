import Stoa.Model.LessonQuiz
import Stoa.Store.Auxiliary
import Stoa.Store.Runs
import Stoa.Verification.Practice.Writes

/-! # Lesson quizzes

A request reads the session, judges the answer and writes the next session. Where
every write finds the session that was read, two wrong answers lose the quiz. -/

namespace Stoa.Practice

open RowStore

variable {F : Type}

def sessionOf (t : Table Key (Row F)) (student quiz : String) : Option QuizSession :=
  (t.row (.practice (.quizSession student quiz))).map fun row : Owned QuizSession => row.item

def mistakesOf (t : Table Key (Row F)) (student quiz : String) : ℕ :=
  (sessionOf t student quiz).elim 0 QuizSession.mistakes

abbrev QuizCommit (F : Type) := Commit Key (Row F) QuizCall

/-- The commit counts a mistake. -/
def Wrong (student quiz : String) (e : QuizCommit F) : Bool :=
  mistakesOf e.before student quiz < mistakesOf e.after student quiz

/-- The commit puts a credential for the session. -/
def Issues (student quiz : String) (e : QuizCommit F) : Prop :=
  ∃ (id : String) (row : Owned QuizCredential),
    e.before.row (.practice (.quizCredential student id)) = none ∧
      e.after.row (.practice (.quizCredential student id)) = some row ∧ row.item.quizId = quiz

/-! ## The condition -/

/-- What is left of an answer that has been judged. -/
def countFrom (r : AnswerLessonQuiz) (session : QuizSession) (progress : QuizProgress)
    (correct : Bool) (generation : ℤ) : Handler F QuizView := do
  transact (updateTransaction r.session (fun session : QuizSession => session.advance progress)
    (fun _ => true) r.studentId generation)
  answeredView r session progress correct

/-- What is left where no exercise resolves. -/
def failFrom (r : AnswerLessonQuiz) (session : QuizSession) (generation : ℤ) :
    Handler F QuizView := do
  transact (updateTransaction r.session
    (fun stored : QuizSession => stored.advance ⟨[], session.mistakes, .failed⟩)
    (fun _ => true) r.studentId generation)
  violate .lessonQuizUnavailable

/-- What is left of an answer before it writes the session that it has read. -/
def WritesFrom (r : AnswerLessonQuiz) (session : QuizSession)
    (p : Program Key (Row F) (Except Raised QuizView)) : Prop :=
  ∃ generation, p = (failFrom r session generation).run ∨ ∃ asked queue correct,
    p = (countFrom r session (afterQuizAnswer session.mistakes asked queue correct) correct
      generation).run

/-- A session is written as it follows from the one that is stored. -/
def SessionCurrent : QuizCall → Program Key (Row F) (Except Raised QuizView) → Table Key (Row F) → Prop
  | .answer r, .transact ops next, t => (∃ w ∈ ops, w.key = .practice r.session) →
      ∃ session, sessionOf t r.studentId r.quizId = some session ∧ session.status = .inProgress ∧
        WritesFrom r session (.transact ops next)
  | _, _, _ => True

/-! ## One answer -/

@[simp] theorem quizProgress_mistakes (mistakes : ℕ) (queue : List String) :
    (quizProgress mistakes queue).mistakes = mistakes := by
  unfold quizProgress
  split
  · rfl
  · split <;> rfl

/-- Who has not lost has made one mistake at most. -/
theorem mistakes_le_of_not_failed {mistakes : ℕ} {queue : List String}
    (h : (quizProgress mistakes queue).status ≠ .failed) : mistakes ≤ 1 := by
  by_contra hlt
  have hlost : quizLost mistakes = true := decide_eq_true (not_le.mp hlt)
  simp [quizProgress, hlost] at h

theorem afterQuizAnswer_mistakes (mistakes : ℕ) (asked : String) (queue : List String)
    (correct : Bool) : (afterQuizAnswer mistakes asked queue correct).mistakes =
      mistakes + if correct then 0 else 1 := by
  cases correct <;> simp [afterQuizAnswer]

theorem afterQuizAnswer_not_failed {mistakes : ℕ} {asked : String} {queue : List String}
    {correct : Bool} (h : (afterQuizAnswer mistakes asked queue correct).status ≠ .failed) :
    (afterQuizAnswer mistakes asked queue correct).mistakes ≤ 1 := by
  cases correct <;> simp only [afterQuizAnswer, Bool.false_eq_true, if_true, if_false] at h ⊢
  · exact (quizProgress_mistakes _ _).trans_le (mistakes_le_of_not_failed h)
  · exact (quizProgress_mistakes _ _).trans_le (mistakes_le_of_not_failed h)

/-! ## The invariant -/

inductive QuizPhase where
  | asking
  /-- The answer is counted; `owes` if a credential is still to be put. -/
  | counted (correct owes : Bool)
  deriving DecidableEq

abbrev QuizGhost := QuizCall × QuizPhase

/-- The call still owes the credential of a session. -/
def Owes (g : ℕ → Option QuizGhost) (i : ℕ) (student quiz : String) : Prop :=
  ∃ r correct, g i = some (.answer r, .counted correct true) ∧ r.studentId = student ∧ r.quizId = quiz

structure QuizSound (w : View Key (Row F) QuizCall) : Prop where
  mistakes : ∀ student quiz, mistakesOf w.table student quiz = w.history.countP (Wrong student quiz)
  lost : ∀ student quiz session, sessionOf w.table student quiz = some session →
    session.status ≠ .failed → session.mistakes ≤ 1
  final : ∀ e ∈ w.history, ∀ student quiz session, sessionOf e.before student quiz = some session →
    session.status ≠ .inProgress → sessionOf e.after student quiz = some session
  issued : ∀ e ∈ w.history, ∀ student quiz, Issues student quiz e →
    ∃ session, sessionOf w.table student quiz = some session ∧ session.status = .passed
  once : ∀ student quiz, w.history.Pairwise fun later earlier =>
    ¬ (Issues student quiz later ∧ Issues student quiz earlier)

/-- What every step keeps. -/
structure QuizInv (w : View Key (Row F) QuizCall) (g : ℕ → Option QuizGhost) : Prop
    extends QuizSound w where
  counted : ∀ i r correct owes, g i = some (.answer r, .counted correct owes) →
    ∃ e ∈ w.history, e.id = i ∧ (correct = false → Wrong r.studentId r.quizId e = true)
  owing : ∀ i student quiz, Owes g i student quiz → (∀ e ∈ w.history, ¬ Issues student quiz e) ∧
    ∃ session, sessionOf w.table student quiz = some session ∧ session.status = .passed
  owing_unique : ∀ i j student quiz, Owes g i student quiz → Owes g j student quiz → i = j

/-- What one commit may make of a session. -/
inductive SessionStep : Option QuizSession → Option QuizSession → Prop where
  | same (stored) : SessionStep stored stored
  | opened (session : QuizSession) (mistakes : session.mistakes = 0)
      (status : session.status = .inProgress) : SessionStep none (some session)
  | counted (session session' : QuizSession) (status : session.status = .inProgress)
      (mistakes : session'.mistakes = session.mistakes ∨ session'.mistakes = session.mistakes + 1)
      (lost : session'.status ≠ .failed → session'.mistakes ≤ 1) :
      SessionStep (some session) (some session')

theorem SessionStep.final {session : QuizSession} {stored : Option QuizSession}
    (h : SessionStep (some session) stored) (hended : session.status ≠ .inProgress) :
    stored = some session := by
  cases h with
  | same => rfl
  | counted _ _ status => exact absurd status hended

theorem SessionStep.mistakes {stored stored' : Option QuizSession} (h : SessionStep stored stored') :
    stored'.elim 0 QuizSession.mistakes = stored.elim 0 QuizSession.mistakes +
      if stored.elim 0 QuizSession.mistakes < stored'.elim 0 QuizSession.mistakes then 1 else 0 := by
  cases h with
  | same => simp
  | opened session mistakes => simp [mistakes]
  | counted session session' status mistakes =>
      rcases mistakes with mistakes | mistakes <;> simp [mistakes]

section

variable {w : View Key (Row F) QuizCall} {g : ℕ → Option QuizGhost} {i : ℕ} {c : QuizCall}
  {ops : List (Write Key (Row F))} {x : QuizGhost}

/-- The entry of a commit. -/
abbrev entry (w : View Key (Row F) QuizCall) (i : ℕ) (c : QuizCall) (ops : List (Write Key (Row F))) :
    QuizCommit F :=
  ⟨i, c, w.clock, w.table, w.table.apply ops⟩

theorem QuizSound.commit (h : QuizSound w)
    (hsessions : ∀ student quiz, SessionStep (sessionOf w.table student quiz)
      (sessionOf (w.table.apply ops) student quiz))
    (hissues : ∀ student quiz, Issues student quiz (entry w i c ops) →
      (∀ e ∈ w.history, ¬ Issues student quiz e) ∧
        ∃ session, sessionOf w.table student quiz = some session ∧ session.status = .passed) :
    QuizSound (w.commit i c ops) := by
  -- A session that is passed stays so.
  have hpassed : ∀ {student quiz}, (∃ session, sessionOf w.table student quiz = some session ∧
      session.status = .passed) → ∃ session, sessionOf (w.table.apply ops) student quiz =
        some session ∧ session.status = .passed := by
    rintro student quiz ⟨session, hsession, hstatus⟩
    have hstep := hsessions student quiz
    rw [hsession] at hstep
    exact ⟨session, hstep.final (by simp [hstatus]), hstatus⟩
  refine ⟨fun student quiz => ?_, fun student quiz session hsession hstatus => ?_,
    fun e he student quiz session hsession hstatus => ?_, fun e he student quiz he' => ?_,
    fun student quiz => ?_⟩
  · have hcount := (hsessions student quiz).mistakes
    rw [View.history_commit, List.countP_cons, ← h.mistakes student quiz]
    exact hcount.trans (congrArg _ (if_congr decide_eq_true_iff.symm rfl rfl))
  · have hstep := hsessions student quiz
    rw [View.table_commit] at hsession
    rw [hsession] at hstep
    generalize hbefore : sessionOf w.table student quiz = before at hstep
    cases hstep with
    | same => exact h.lost student quiz session hbefore hstatus
    | opened _ mistakes => simp [mistakes]
    | counted _ _ _ _ lost => exact lost hstatus
  · rcases List.mem_cons.mp he with rfl | he
    · have hstep := hsessions student quiz
      rw [hsession] at hstep
      exact hstep.final hstatus
    · exact h.final e he student quiz session hsession hstatus
  · rcases List.mem_cons.mp he with rfl | he
    · exact hpassed (hissues student quiz he').2
    · exact hpassed (h.issued e he student quiz he')
  · refine List.pairwise_cons.mpr ⟨fun e he hboth => ?_, h.once student quiz⟩
    exact (hissues student quiz hboth.1).1 e he hboth.2

theorem QuizInv.commit (h : QuizInv w g)
    (hsessions : ∀ student quiz, SessionStep (sessionOf w.table student quiz)
      (sessionOf (w.table.apply ops) student quiz))
    (hissues : ∀ student quiz, Issues student quiz (entry w i c ops) → Owes g i student quiz)
    (hcounted : ∀ r correct owes, x = (.answer r, .counted correct owes) →
      (∃ owed, g i = some (.answer r, .counted correct owed)) ∨
        (correct = false → Wrong r.studentId r.quizId (entry w i c ops) = true))
    (howes : ∀ student quiz, Owes (Function.update g i (some x)) i student quiz →
      (∃ session, sessionOf w.table student quiz = some session ∧ session.status = .inProgress) ∧
        ∃ session, sessionOf (w.table.apply ops) student quiz = some session ∧
          session.status = .passed) :
    QuizInv (w.commit i c ops) (Function.update g i (some x)) := by
  have hsound : QuizSound (w.commit i c ops) :=
    h.toQuizSound.commit hsessions fun student quiz he => h.owing i student quiz (hissues student quiz he)
  have hold : ∀ {j student quiz}, j ≠ i → Owes (Function.update g i (some x)) j student quiz →
      Owes g j student quiz := by
    rintro j student quiz hji ⟨r, correct, hj, hrest⟩
    exact ⟨r, correct, by rwa [Function.update_of_ne hji] at hj, hrest⟩
  -- Whoever comes to owe the credential does so on a session that was in progress.
  have hfresh : ∀ {student quiz}, Owes (Function.update g i (some x)) i student quiz →
      ¬ ∃ session, sessionOf w.table student quiz = some session ∧ session.status = .passed := by
    rintro student quiz ho ⟨session, hsession, hstatus⟩
    obtain ⟨session', hsession', hstatus'⟩ := (howes student quiz ho).1
    cases hsession.symm.trans hsession'
    cases hstatus.symm.trans hstatus'
  refine ⟨hsound, fun j r correct owes hj => ?_, fun j student quiz ho => ?_,
    fun j k student quiz hj hk => ?_⟩
  · by_cases hji : j = i
    · subst hji
      rw [Function.update_self] at hj
      rcases hcounted r correct owes (Option.some_inj.mp hj) with ⟨owed, hgi⟩ | hwrong
      · obtain ⟨e, he, hrest⟩ := h.counted j r correct owed hgi
        exact ⟨e, List.mem_cons_of_mem _ he, hrest⟩
      · exact ⟨_, List.mem_cons_self .., rfl, hwrong⟩
    · rw [Function.update_of_ne hji] at hj
      obtain ⟨e, he, hrest⟩ := h.counted j r correct owes hj
      exact ⟨e, List.mem_cons_of_mem _ he, hrest⟩
  · by_cases hji : j = i
    · subst hji
      refine ⟨fun e he hissued => hfresh ho ?_, (howes student quiz ho).2⟩
      rcases List.mem_cons.mp he with rfl | he
      · exact (h.owing j student quiz (hissues student quiz hissued)).2
      · exact h.issued e he student quiz hissued
    · have hoj := hold hji ho
      obtain ⟨hnone, session, hsession, hstatus⟩ := h.owing j student quiz hoj
      refine ⟨fun e he hissued => ?_, session, ?_, hstatus⟩
      · rcases List.mem_cons.mp he with rfl | he
        · exact hji (h.owing_unique j i student quiz hoj (hissues student quiz hissued))
        · exact hnone e he hissued
      · have hstep := hsessions student quiz
        rw [hsession] at hstep
        exact hstep.final (by simp [hstatus])
  · have hnew : ∀ {l}, l ≠ i → Owes (Function.update g i (some x)) l student quiz →
        ¬ Owes (Function.update g i (some x)) i student quiz := fun hli hl hi =>
      hfresh hi (h.owing _ student quiz (hold hli hl)).2
    by_cases hji : j = i
    · by_cases hki : k = i
      · rw [hji, hki]
      · exact absurd (hji ▸ hj) (hnew hki hk)
    · by_cases hki : k = i
      · exact absurd (hki ▸ hk) (hnew hji hj)
      · exact h.owing_unique j k student quiz (hold hji hj) (hold hki hk)

variable {k : PracticeKey} {item : Item F k} {updates : Item F k → Item F k}
  {condition : Item F k → Bool} {owner : String} {generation : ℤ}

theorem not_issues {student quiz : String} (h : ∀ id, (w.table.apply ops).row
    (.practice (.quizCredential student id)) = w.table.row (.practice (.quizCredential student id))) :
    ¬ Issues student quiz (entry w i c ops) := by
  rintro ⟨id, row, hbefore, hafter, -⟩
  cases hbefore.symm.trans ((h id).symm.trans hafter)

theorem SessionStep.of_row {t t' : Table Key (Row F)} {student quiz : String}
    (h : t'.row (.practice (.quizSession student quiz)) =
      t.row (.practice (.quizSession student quiz))) :
    SessionStep (sessionOf t student quiz) (sessionOf t' student quiz) := by
  rw [sessionOf, sessionOf, h]
  exact .same _

theorem QuizInv.create {r : StartLessonQuiz} {session : QuizSession} (h : QuizInv w g)
    (hi : g i = some (.start r, .asking)) (hmistakes : session.mistakes = 0)
    (hstatus : session.status = .inProgress)
    (ha : w.table.Admits (putTransaction (.quizSession r.studentId r.quizId) session owner generation)) :
    QuizInv (w.commit i (.start r)
      (putTransaction (.quizSession r.studentId r.quizId) session owner generation)) g := by
  have hsame : Function.update g i (some (QuizCall.start r, QuizPhase.asking)) = g := by
    rw [← hi, Function.update_eq_self]
  rw [← hsame]
  refine h.commit (fun student quiz => ?_) (fun student quiz he => absurd he (not_issues fun id =>
    putTransaction_others (by simp))) (fun r' correct owes hx => by cases hx) fun student quiz ho => ?_
  · obtain ⟨hnone, hsome⟩ := putTransaction_stores ha
    by_cases hkey : Key.practice (.quizSession student quiz) =
        .practice (.quizSession r.studentId r.quizId)
    · cases hkey
      rw [sessionOf, sessionOf, hnone, hsome]
      exact .opened session hmistakes hstatus
    · exact .of_row (putTransaction_others hkey)
  · obtain ⟨r', correct, hr', -⟩ := ho
    rw [Function.update_self] at hr'
    cases hr'

/-- An answer writes the next session. -/
theorem QuizInv.advance {r : AnswerLessonQuiz} {session : QuizSession} {progress : QuizProgress}
    (h : QuizInv w g) (hsession : sessionOf w.table r.studentId r.quizId = some session)
    (hstatus : session.status = .inProgress)
    (hmistakes : progress.mistakes = session.mistakes ∨ progress.mistakes = session.mistakes + 1)
    (hlost : progress.status ≠ .failed → progress.mistakes ≤ 1)
    (ha : w.table.Admits (updateTransaction r.session
      (fun session : QuizSession => session.advance progress) (fun _ => true) owner generation))
    (hx : x = (.answer r, .asking) ∨ ∃ correct, x = (.answer r, .counted correct
      (progress.status = .passed)) ∧ (correct = false → progress.mistakes = session.mistakes + 1)) :
    QuizInv (w.commit i (.answer r) (updateTransaction r.session
      (fun session : QuizSession => session.advance progress) (fun _ => true) owner generation))
      (Function.update g i (some x)) := by
  obtain ⟨row, hrow, -, -, hafter⟩ := updateTransaction_stores ha
  have hitem : row.item = session := by
    have hstored : sessionOf w.table r.studentId r.quizId = some row.item :=
      congrArg (Option.map fun row : Owned QuizSession => row.item) hrow
    exact Option.some_inj.mp (hstored.symm.trans hsession)
  have hnext : sessionOf (w.table.apply (updateTransaction r.session
      (fun session : QuizSession => session.advance progress) (fun _ => true) owner generation))
      r.studentId r.quizId = some (session.advance progress) := by
    rw [← hitem]
    exact congrArg (Option.map fun row : Owned QuizSession => row.item) hafter
  refine h.commit (fun student quiz => ?_) (fun student quiz he => absurd he (not_issues fun id =>
    updateTransaction_others fun he => by cases he)) (fun r' correct owes hr' => ?_)
    fun student quiz ho => ?_
  · by_cases hkey : Key.practice (.quizSession student quiz) = .practice r.session
    · cases hkey
      rw [hsession, hnext]
      exact .counted session _ hstatus hmistakes hlost
    · exact .of_row (updateTransaction_others hkey)
  · rcases hx with rfl | ⟨correct', rfl, hwrong⟩
    · cases hr'
    · cases hr'
      refine .inr fun hfalse => decide_eq_true ?_
      simp only [mistakesOf]
      rw [hsession, hnext]
      exact (Nat.lt_succ_self _).trans_eq (hwrong hfalse).symm
  · obtain ⟨r', correct', hr', rfl, rfl⟩ := ho
    rw [Function.update_self] at hr'
    rcases hx with rfl | ⟨correct, rfl, -⟩
    · cases hr'
    · obtain ⟨hcall, hphase⟩ := Prod.mk.inj (Option.some_inj.mp hr')
      cases hcall
      refine ⟨⟨session, hsession, hstatus⟩, _, hnext, ?_⟩
      exact of_decide_eq_true (QuizPhase.counted.inj hphase).2

/-- A call puts the credential that it owes. -/
theorem QuizInv.issue {r : AnswerLessonQuiz} {credential : QuizCredential} {correct : Bool}
    (h : QuizInv w g) (hi : g i = some (.answer r, .counted correct true))
    (hquiz : credential.quizId = r.quizId)
    (ha : w.table.Admits (putTransaction (.quizCredential r.studentId r.credentialId) credential
      owner generation)) :
    QuizInv (w.commit i (.answer r) (putTransaction (.quizCredential r.studentId r.credentialId)
      credential owner generation))
      (Function.update g i (some (.answer r, .counted correct false))) := by
  refine h.commit (fun student quiz => ?_) (fun student quiz he => ?_) (fun r' correct' owes hr' => ?_)
    fun student quiz ho => ?_
  · exact .of_row (putTransaction_others (by simp))
  · obtain ⟨id, row, hbefore, hafter, rfl⟩ := he
    by_cases hkey : Key.practice (.quizCredential student id) =
        .practice (.quizCredential r.studentId r.credentialId)
    · cases hkey
      cases (putTransaction_stores ha).2.symm.trans hafter
      exact ⟨r, correct, hi, rfl, hquiz.symm⟩
    · cases hbefore.symm.trans ((putTransaction_others hkey).symm.trans hafter)
  · cases hr'
    exact .inl ⟨true, hi⟩
  · obtain ⟨r', correct', hr', -⟩ := ho
    rw [Function.update_self] at hr'
    cases hr'

theorem QuizInv.initial {t : Table Key (Row F)} (h : ∀ student quiz, sessionOf t student quiz = none) :
    QuizInv ⟨t, 0, []⟩ fun _ => none := by
  refine ⟨⟨fun student quiz => ?_, fun student quiz session hs => ?_, by simp, by simp,
    fun _ _ => .nil⟩, by simp, ?_, ?_⟩
  · simp [mistakesOf, h]
  · cases (h student quiz).symm.trans hs
  · rintro i student quiz ⟨r, correct, hi, -⟩
    cases hi
  · rintro i j student quiz ⟨r, correct, hi, -⟩
    cases hi

/-- A call that owes nothing may come and go. -/
theorem QuizInv.exchange (h : QuizInv w g) {y : Option QuizGhost}
    (hy : ∀ r correct owes, y ≠ some (.answer r, .counted correct owes)) :
    QuizInv w (Function.update g i y) := by
  have hold : ∀ {j student quiz}, Owes (Function.update g i y) j student quiz →
      Owes g j student quiz := by
    rintro j student quiz ⟨r, correct, hj, hrest⟩
    by_cases hji : j = i
    · rw [hji, Function.update_self] at hj
      exact absurd hj (hy r correct true)
    · exact ⟨r, correct, by rwa [Function.update_of_ne hji] at hj, hrest⟩
  refine ⟨h.toQuizSound, fun j r correct owes hj => ?_, fun j student quiz hj => ?_,
    fun j k student quiz hj hk => ?_⟩
  · by_cases hji : j = i
    · rw [hji, Function.update_self] at hj
      exact absurd hj (hy r correct owes)
    · exact h.counted j r correct owes (by rwa [Function.update_of_ne hji] at hj)
  · exact h.owing j student quiz (hold hj)
  · exact h.owing_unique j k student quiz (hold hj) (hold hk)

theorem QuizInv.drift (h : QuizInv w g) {t : Table Key (Row F)}
    (ht : ∀ student quiz, sessionOf t student quiz = sessionOf w.table student quiz) :
    QuizInv { w with table := t } g := by
  refine ⟨⟨fun student quiz => ?_, fun student quiz session hs => ?_, h.final,
    fun e he student quiz hissued => ?_, h.once⟩, h.counted, fun i student quiz hi => ?_,
    h.owing_unique⟩
  · exact (congrArg (Option.elim · 0 QuizSession.mistakes) (ht student quiz)).trans
      (h.mistakes student quiz)
  · exact h.lost student quiz session ((ht student quiz).symm.trans hs)
  · obtain ⟨session, hs, hstatus⟩ := h.issued e he student quiz hissued
    exact ⟨session, (ht student quiz).trans hs, hstatus⟩
  · obtain ⟨hnone, session, hs, hstatus⟩ := h.owing i student quiz hi
    exact ⟨hnone, session, (ht student quiz).trans hs, hstatus⟩

end

/-! ## Every call -/

section

variable {faults : Faults} {judge : Challenge → String → String → Option Bool} {i : ℕ}

/-- What is known when a call returns: an answer that is judged has been counted. -/
def Judged (c : QuizCall) (a : Except Raised QuizView) (x : QuizGhost) : Prop :=
  ∀ view correct, a = .ok view → view.correct = some correct → ∃ owes, x = (c, .counted correct owes)

theorem judged_error {c : QuizCall} {e : Raised} {x : QuizGhost} : Judged c (.error e) x :=
  fun _ _ h => by cases h

abbrev QuizKeeps (faults : Faults) (i : ℕ) (c : QuizCall)
    (p : Program Key (Row F) (Except Raised QuizView)) (x : QuizGhost) : Prop :=
  p.Keeps faults (QuizInv (F := F)) (SessionCurrent c) i c (Judged c) x

theorem readOnly_resolveNext (queue : List String) :
    (resolveNext queue : Handler F _).run.ReadOnly := by
  induction queue with
  | nil => trivial
  | cons id queue ih =>
      refine RowStore.Handler.readOnly_bind RowStore.Handler.readOnly_get fun found => ?_
      cases found with
      | none => exact ih
      | some challenge => trivial

theorem readOnly_quizExercise (progress : QuizProgress) :
    (quizExercise progress : Handler F _).run.ReadOnly := by
  unfold quizExercise
  split
  · exact RowStore.Handler.readOnly_get
  · trivial

theorem readOnly_quizView (session : QuizSession) (progress : QuizProgress) :
    (quizView session progress : Handler F _).run.ReadOnly :=
  RowStore.Handler.readOnly_bind (readOnly_quizExercise progress) fun _ => trivial

theorem keeps_startLessonQuiz (r : StartLessonQuiz) :
    QuizKeeps faults i (.start r) (startLessonQuiz r : Handler F _).run (.start r, .asking) := by
  unfold startLessonQuiz
  dsimp only
  split
  · exact judged_error
  · refine RowStore.Handler.keeps_bind (keeps_putOnce (k := .quizSession r.studentId r.quizId)
      (y := (.start r, .asking)) (fun e z => judged_error) (fun a => ?_) ?_)
    · refine RowStore.Handler.keeps_readOnly_bind (readOnly_quizExercise _) (fun exercise => ?_)
        fun e => judged_error
      exact fun view correct hview hcorrect => by cases hview; cases hcorrect
    · intro generation next w g hw hi ha _
      have hnext := hw.create hi rfl rfl ha
      rwa [← Function.update_eq_self i g, hi] at hnext

theorem keeps_answeredView {r : AnswerLessonQuiz} {session : QuizSession} {progress : QuizProgress}
    {correct : Bool} : QuizKeeps faults i (.answer r)
      (answeredView r session progress correct : Handler F _).run
      (.answer r, .counted correct (progress.status = .passed)) := by
  refine RowStore.Handler.keeps_readOnly_bind (readOnly_quizView session progress) (fun view => ?_)
    fun e => judged_error
  by_cases hpassed : progress.status = .passed
  · simp only [hpassed, if_true, decide_true]
    refine RowStore.Handler.keeps_bind (keeps_putOnce
      (k := .quizCredential r.studentId r.credentialId) (y := (.answer r, .counted correct false))
      (fun e z => judged_error) (fun a => ?_) ?_)
    · exact fun view correct' hview hcorrect => by
        cases hview
        cases hcorrect
        exact ⟨false, rfl⟩
    · exact fun generation next w g hw hi ha _ => hw.issue hi rfl ha
  · simp only [hpassed, if_false, decide_false]
    exact fun view correct' hview hcorrect => by
      cases hview
      cases hcorrect
      exact ⟨false, rfl⟩

/-- The session is written, and what is left goes on from what was stored. -/
theorem keeps_writeSession {r : AnswerLessonQuiz} {ops : List (Write Key (Row F))}
    {next : Bool → Program Key (Row F) (Except Raised QuizView)}
    (hnames : ∃ w ∈ ops, w.key = .practice r.session)
    (hrefused : next false = .ret (.error .dependency)) :
    QuizKeeps faults i (.answer r) (.transact ops next) (.answer r, .asking) := by
  intro w g hw hi
  refine ⟨fun _ => .same hw hi (hrefused ▸ judged_error), fun ha hc => ?_⟩
  obtain ⟨session, hsession, hstatus, generation, heq | ⟨asked, queue, correct, heq⟩⟩ := hc hnames
  · obtain ⟨rfl, rfl⟩ := Program.transact.inj heq
    have hnext := hw.advance (i := i) hsession hstatus (.inl rfl) (fun h => absurd rfl h) ha
      (.inl (Eq.refl (QuizCall.answer r, QuizPhase.asking)))
    exact ⟨⟨_, hnext, judged_error⟩, fun _ => ⟨_, hnext, judged_error⟩⟩
  · obtain ⟨rfl, rfl⟩ := Program.transact.inj heq
    have hmistakes := afterQuizAnswer_mistakes session.mistakes asked queue correct
    have hnext := hw.advance (i := i) hsession hstatus
      (by cases correct <;> simp [hmistakes]) (afterQuizAnswer_not_failed ·) ha
      (.inr ⟨correct, rfl, fun hwrong => hmistakes.trans (by simp [hwrong])⟩)
    exact ⟨⟨_, hnext, keeps_answeredView⟩, fun _ => ⟨_, hnext, judged_error⟩⟩

theorem countQuizAnswer_eq (r : AnswerLessonQuiz) (session : QuizSession) (progress : QuizProgress)
    (correct : Bool) : (countQuizAnswer r session progress correct : Handler F QuizView) =
      writeGeneration r.studentId >>= countFrom r session progress correct := by
  simp only [countQuizAnswer, updateQuizSession, bind_assoc]
  rfl

theorem answerSession_eq (r : AnswerLessonQuiz) (session : QuizSession) :
    (answerSession judge r session : Handler F QuizView) = resolveNext session.queue >>= fun
      | none => writeGeneration r.studentId >>= failFrom r session
      | some (challenge, asked, queue) =>
        match judge challenge r.answer r.locale with
        | none => violate .practiceAnswerInvalid
        | some correct => writeGeneration r.studentId >>=
          countFrom r session (afterQuizAnswer session.mistakes asked queue correct) correct := by
  unfold answerSession
  refine congrArg _ (funext fun found => ?_)
  rcases found with _ | ⟨challenge, asked, queue⟩
  · simp only [updateQuizSession, bind_assoc]
    rfl
  · dsimp only
    cases judge challenge r.answer r.locale with
    | none => rfl
    | some correct => exact countQuizAnswer_eq ..

theorem keeps_answerLessonQuiz (r : AnswerLessonQuiz) : QuizKeeps faults i (.answer r)
    (answerLessonQuiz judge r : Handler F _).run (.answer r, .asking) := by
  have hnames : ∀ (updates : QuizSession → QuizSession) generation,
      ∃ w ∈ (updateTransaction r.session updates (fun _ => true) r.studentId generation :
        List (Write Key (Row F))), w.key = .practice r.session :=
    fun updates generation => ⟨_, List.mem_cons_of_mem _ (List.mem_cons_self ..), rfl⟩
  refine RowStore.Handler.keeps_get_bind (fun stored => ?_) judged_error
  cases stored with
  | none => exact judged_error
  | some row =>
      dsimp only
      split_ifs
      all_goals try exact judged_error
      rw [answerSession_eq]
      refine RowStore.Handler.keeps_readOnly_bind (readOnly_resolveNext _) (fun found => ?_)
        fun e => judged_error
      rcases found with _ | ⟨challenge, asked, queue⟩
      · exact RowStore.Handler.keeps_readOnly_bind readOnly_writeGeneration
          (fun generation => keeps_writeSession (hnames _ _) rfl) fun e => judged_error
      · dsimp only
        split
        · exact judged_error
        · exact RowStore.Handler.keeps_readOnly_bind readOnly_writeGeneration
            (fun generation => keeps_writeSession (hnames _ _) rfl) fun e => judged_error

theorem quiz_kept {t : Table Key (Row F)} {s : State Key (Row F) QuizCall (Except Raised QuizView)}
    (hempty : ∀ student quiz, sessionOf t student quiz = none)
    (h : StepsMeeting (quizService F judge faults) SessionCurrent (.initial t) s) :
    ∃ g, Kept faults (QuizInv (F := F)) SessionCurrent Judged s g := by
  refine h.kept (S := quizService F judge faults) (QuizInv.initial hempty)
    (fun w g i hw => hw.exchange (by simp)) (fun w g u hw hdrift => ?_) (fun w g n hw _ => ?_)
    fun c w g i hw _ _ _ => ⟨(c, .asking), hw.exchange (by simp), ?_⟩
  · exact hw.drift fun student quiz =>
      congrArg (Option.map fun row : Owned QuizSession => row.item) (hdrift.1 student quiz)
  · exact { hw with }
  · cases c with
    | start r => exact keeps_startLessonQuiz r
    | answer r => exact keeps_answerLessonQuiz r

end

/-! ## Answers one after another -/

/-- The answers are judged one after another, and nobody else writes. -/
def answersAlone (judge : Challenge → String → String → Option Bool) :
    List AnswerLessonQuiz → Table Key (Row F) → List (Except Raised QuizView) × Table Key (Row F)
  | [], t => ([], t)
  | r :: requests, t =>
    let answer := (answerLessonQuiz judge r : Handler F _).run.alone t
    let rest := answersAlone judge requests answer.2
    (answer.1 :: rest.1, rest.2)

/-- The answer was judged, and is wrong. -/
def judgedWrong : Except Raised QuizView → Bool
  | .ok view => view.correct = some false
  | .error _ => false

/-- A session that can be answered, and every exercise of which resolves. -/
structure QuizOpen (t : Table Key (Row F)) (student lesson quiz : String) (session : QuizSession) :
    Prop where
  fence : ∃ generation, requireActiveAccountFence (t.row (.accountFence student)) none = some generation
  stored : ∃ generation, t.row (.practice (.quizSession student quiz)) =
    some (⟨student, generation, session⟩ : Owned QuizSession)
  lesson : session.lessonId = lesson
  status : session.status = .inProgress
  queue : session.queue ≠ []
  resolves : ∀ id ∈ session.queue, (t.row (.challenge id)).isSome

/-- A request with an answer that can be judged, in time and with a new token. -/
structure AnswerLessonQuiz.InTime (judge : Challenge → String → String → Option Bool)
    (t : Table Key (Row F)) (student lesson quiz : String) (expiresAt : ℕ) (r : AnswerLessonQuiz) :
    Prop where
  session : r.studentId = student ∧ r.lessonId = lesson ∧ r.quizId = quiz
  now : r.now / 1000000 < expiresAt
  judged : ∀ challenge, (judge challenge r.answer r.locale).isSome
  credential : t.row (.practice (.quizCredential student r.credentialId)) = none

section

variable {judge : Challenge → String → String → Option Bool} {t : Table Key (Row F)}
  {student lesson quiz : String} {session : QuizSession} {r : AnswerLessonQuiz}

theorem answersAlone_finished (judge : Challenge → String → String → Option Bool)
    (hstored : ∃ generation, t.row (.practice (.quizSession student quiz)) =
      some (⟨student, generation, session⟩ : Owned QuizSession))
    (hlesson : session.lessonId = lesson) (hstatus : session.status ≠ .inProgress)
    {requests : List AnswerLessonQuiz}
    (hrequests : ∀ r ∈ requests, r.studentId = student ∧ r.lessonId = lesson ∧ r.quizId = quiz) :
    (answersAlone judge requests t).2 = t ∧
      (answersAlone judge requests t).1.countP judgedWrong = 0 := by
  induction requests with
  | nil => exact ⟨rfl, rfl⟩
  | cons r requests ih =>
      obtain ⟨generation, hrow⟩ := hstored
      obtain ⟨rfl, rfl, rfl⟩ := hrequests r (List.mem_cons_self ..)
      have hone : (answerLessonQuiz judge r : Handler F _).run.alone t =
          (.error (.violation .lessonQuizFinished none), t) := by
        refine RowStore.Handler.alone_get_bind.trans ?_
        rw [hrow]
        simp only [hlesson, hstatus, ne_eq, not_true_eq_false, not_false_eq_true, if_false, if_true]
        rfl
      simp only [answersAlone, hone]
      exact ih fun r hr => hrequests r (List.mem_cons_of_mem _ hr)

theorem alone_quizView (session : QuizSession) (progress : QuizProgress) (t : Table Key (Row F)) :
    ∃ view, (quizView session progress : Handler F _).run.alone t = (.ok view, t) := by
  have hview : ∀ exercise, (quizExercise progress : Handler F _).run.alone t = (.ok exercise, t) →
      ∃ view, (quizView session progress : Handler F _).run.alone t = (.ok view, t) :=
    fun exercise h => ⟨_, RowStore.Handler.alone_bind_ok h⟩
  unfold quizExercise at hview
  split at hview
  · exact hview _ rfl
  · exact hview none rfl

theorem alone_answeredView (session : QuizSession) (progress : QuizProgress) (correct : Bool)
    {generation : ℤ}
    (hfence : requireActiveAccountFence (t.row (.accountFence r.studentId)) none = some generation)
    (hfresh : t.row (.practice (.quizCredential r.studentId r.credentialId)) = none) :
    ∃ view u, (answeredView r session progress correct : Handler F _).run.alone t = (.ok view, u) ∧
      view.correct = some correct ∧
      ∀ k, (progress.status = .passed → k ≠ .practice (.quizCredential r.studentId r.credentialId)) →
        u.row k = t.row k := by
  obtain ⟨view, hview⟩ := alone_quizView session progress t
  by_cases hpassed : progress.status = .passed
  · refine ⟨{ view with correct := some correct, credential := some r.credentialId },
      t.apply (putTransaction (.quizCredential r.studentId r.credentialId) r.credential r.studentId
        generation), (RowStore.Handler.alone_bind_ok hview).trans ?_, rfl,
      fun k hk => putTransaction_others (hk hpassed)⟩
    rw [if_pos hpassed]
    exact RowStore.Handler.alone_bind_ok (alone_putOnce hfence hfresh)
  · refine ⟨{ view with correct := some correct }, t, (RowStore.Handler.alone_bind_ok hview).trans ?_,
      rfl, fun k _ => rfl⟩
    rw [if_neg hpassed]
    rfl

/-- One answer to an open session. -/
theorem alone_answer (hopen : QuizOpen t student lesson quiz session)
    (hr : r.InTime judge t student lesson quiz session.expiresAt) :
    ∃ asked queue correct view u, session.queue = asked :: queue ∧
      (answerLessonQuiz judge r : Handler F _).run.alone t = (.ok view, u) ∧
      view.correct = some correct ∧
      (∃ generation, u.row (.practice (.quizSession student quiz)) = some (⟨student, generation,
        session.advance (afterQuizAnswer session.mistakes asked queue correct)⟩ : Owned QuizSession)) ∧
      ∀ k, k ≠ .practice (.quizSession student quiz) →
        ((afterQuizAnswer session.mistakes asked queue correct).status = .passed →
          k ≠ .practice (.quizCredential student r.credentialId)) → u.row k = t.row k := by
  obtain ⟨rfl, rfl, rfl⟩ := hr.session
  obtain ⟨generation, hfence⟩ := hopen.fence
  obtain ⟨generation', hrow⟩ := hopen.stored
  obtain ⟨asked, queue, hqueue⟩ := List.exists_cons_of_ne_nil hopen.queue
  obtain ⟨challenge, hchallenge⟩ := Option.isSome_iff_exists.mp
    (hopen.resolves asked (by rw [hqueue]; exact List.mem_cons_self ..))
  obtain ⟨correct, hcorrect⟩ := Option.isSome_iff_exists.mp (hr.judged challenge)
  have hcounts : (answerLessonQuiz judge r : Handler F _).run.alone t =
      (countQuizAnswer r session (afterQuizAnswer session.mistakes asked queue correct) correct).run.alone
        t := by
    refine RowStore.Handler.alone_get_bind.trans ?_
    rw [hrow]
    simp only [hopen.lesson, hopen.status, not_le.mpr hr.now, hopen.queue, ne_eq, not_true_eq_false,
      if_false]
    refine RowStore.Handler.alone_bind_ok (y := resolveNext session.queue)
      (a := some (challenge, asked, queue)) (u := t) ?_ |>.trans ?_
    · rw [hqueue]
      refine RowStore.Handler.alone_get_bind.trans ?_
      rw [hchallenge]
      rfl
    · simp only [hcorrect]
  obtain ⟨progress, hprogress⟩ : ∃ progress,
      progress = afterQuizAnswer session.mistakes asked queue correct := ⟨_, rfl⟩
  rw [← hprogress, countQuizAnswer_eq, alone_writeGeneration_bind hfence] at hcounts
  -- The session is written, and then the credential, if there is one.
  have hadmits : t.Admits (updateTransaction r.session
      (fun stored : QuizSession => stored.advance progress) (fun _ => true) r.studentId generation) :=
    updateTransaction_admits hfence hrow rfl rfl
  have hother : ∀ k, k ≠ .practice r.session → (t.apply (updateTransaction r.session
      (fun stored : QuizSession => stored.advance progress) (fun _ => true) r.studentId
        generation)).row k = t.row k := fun k hk => updateTransaction_others hk
  obtain ⟨row, hrow', -, -, hafter⟩ := updateTransaction_stores hadmits
  cases hrow.symm.trans hrow'
  obtain ⟨view, u, hview, hviewed, hu⟩ := alone_answeredView session progress correct
    ((congrArg (requireActiveAccountFence · none) (hother _ (by simp))).trans hfence)
    ((hother _ (by simp)).trans hr.credential)
  refine ⟨asked, queue, correct, view, u, hqueue,
    hcounts.trans ((alone_transact_bind hadmits).trans hview), hviewed, ⟨generation', ?_⟩, ?_⟩
  · rw [← hprogress]
    exact (hu _ (by simp)).trans hafter
  · rw [← hprogress]
    exact fun k hk hcredential => (hu k hcredential).trans (hother k hk)

theorem quizProgress_cases (mistakes : ℕ) (queue : List String) :
    (2 ≤ mistakes ∧ quizProgress mistakes queue = ⟨[], mistakes, .failed⟩) ∨
    (mistakes ≤ 1 ∧ quizProgress mistakes queue = ⟨[], mistakes, .passed⟩) ∨
    (mistakes ≤ 1 ∧ queue ≠ [] ∧ quizProgress mistakes queue = ⟨queue, mistakes, .inProgress⟩) := by
  unfold quizProgress quizLost QUIZ_MAX_MISTAKES
  by_cases hlost : 1 < mistakes
  · exact .inl ⟨hlost, by simp [hlost]⟩
  · by_cases hqueue : queue = []
    · exact .inr (.inl ⟨not_lt.mp hlost, by simp [hlost, hqueue]⟩)
    · exact .inr (.inr ⟨not_lt.mp hlost, hqueue, by simp [hlost, hqueue]⟩)

/-- One answer after another, an open session ends: as passed if one was wrong at
the most. A right answer takes an exercise away, and the first wrong one a heart. -/
theorem answersAlone_ends {requests : List AnswerLessonQuiz}
    (hopen : QuizOpen t student lesson quiz session) (hmistakes : session.mistakes ≤ 1)
    (hrequests : ∀ r ∈ requests, r.InTime judge t student lesson quiz session.expiresAt)
    (hlength : session.queue.length + (1 - session.mistakes) ≤ requests.length) :
    ∃ ended, sessionOf (answersAlone judge requests t).2 student quiz = some ended ∧
      ended.status ≠ .inProgress ∧ (ended.status = .passed ↔
        session.mistakes + (answersAlone judge requests t).1.countP judgedWrong ≤ 1) := by
  induction requests generalizing t session with
  | nil =>
      have hpos := List.length_pos_iff.mpr hopen.queue
      simp only [List.length_nil] at hlength
      omega
  | cons r requests ih =>
      obtain ⟨asked, queue, correct, view, u, hqueue, hanswer, hview, ⟨generation, hrow⟩, hother⟩ :=
        alone_answer hopen (hrequests r (List.mem_cons_self ..))
      have hwrong : judgedWrong (.ok view) = !correct := by
        cases correct <;> simp [judgedWrong, hview]
      have hrest : ∀ r ∈ requests, r.studentId = student ∧ r.lessonId = lesson ∧ r.quizId = quiz :=
        fun r hr => (hrequests r (List.mem_cons_of_mem _ hr)).session
      obtain ⟨mistakes, hm⟩ : ∃ mistakes, mistakes = session.mistakes + if !correct then 1 else 0 :=
        ⟨_, rfl⟩
      obtain ⟨rest, hrestq⟩ : ∃ rest, rest = if correct then queue else queue ++ [asked] := ⟨_, rfl⟩
      have hafter : afterQuizAnswer session.mistakes asked queue correct =
          quizProgress mistakes rest := by
        cases correct <;> simp [afterQuizAnswer, hm, hrestq]
      have hsession : sessionOf u student quiz =
          some (session.advance (quizProgress mistakes rest)) := by
        rw [← hafter]
        exact congrArg (Option.map fun row : Owned QuizSession => row.item) hrow
      simp only [answersAlone, hanswer, List.countP_cons, hwrong]
      rw [hafter] at hrow hother
      -- A quiz that has ended refuses what is left of the requests.
      have hended : (quizProgress mistakes rest).status ≠ .inProgress →
          sessionOf (answersAlone judge requests u).2 student quiz =
              some (session.advance (quizProgress mistakes rest)) ∧
            (answersAlone judge requests u).1.countP judgedWrong = 0 := fun hstatus => by
        obtain ⟨htable, hcount⟩ := answersAlone_finished judge
          ⟨generation, hrow⟩ hopen.lesson hstatus hrest
        exact ⟨(congrArg (sessionOf · student quiz) htable).trans hsession, hcount⟩
      rcases quizProgress_cases mistakes rest with ⟨hle, hp⟩ | ⟨hle, hp⟩ | ⟨hle, hne, hp⟩
      · obtain ⟨hstored, hcount⟩ := hended (by simp [hp])
        refine ⟨_, hstored, by simp [QuizSession.advance, hp], ?_⟩
        simp only [QuizSession.advance, hp, hcount, reduceCtorEq, false_iff]
        omega
      · obtain ⟨hstored, hcount⟩ := hended (by simp [hp])
        refine ⟨_, hstored, by simp [QuizSession.advance, hp], ?_⟩
        simp only [QuizSession.advance, hp, hcount, true_iff]
        omega
      · rw [hp] at hrow hother hsession
        have hlen : rest.length + (1 - mistakes) ≤ requests.length := by
          rw [hqueue, List.length_cons, List.length_cons] at hlength
          cases correct with
          | true =>
              simp only [Bool.not_true, Bool.false_eq_true, if_true, if_false] at hm hrestq
              rw [hrestq]
              omega
          | false =>
              simp only [Bool.not_false, Bool.false_eq_true, if_true, if_false] at hm hrestq
              rw [hrestq, List.length_append, List.length_singleton]
              omega
        have hsub : ∀ id ∈ rest, id ∈ session.queue := fun id hid => by
          rw [hqueue]
          cases correct <;> simp_all [or_comm]
        have hrow_eq : ∀ k, k ≠ .practice (.quizSession student quiz) → u.row k = t.row k :=
          fun k hk => hother k hk (fun h => by cases h)
        have hopen' : QuizOpen u student lesson quiz (session.advance ⟨rest, mistakes, .inProgress⟩) := by
          refine ⟨?_, ⟨generation, hrow⟩, hopen.lesson, rfl, hne, fun id hid => ?_⟩
          · rw [hrow_eq _ (by simp)]
            exact hopen.fence
          · rw [hrow_eq _ (by simp)]
            exact hopen.resolves id (hsub id hid)
        have hnext : ∀ r ∈ requests, r.InTime judge u student lesson quiz session.expiresAt :=
          fun r hr => by
            have hr := hrequests r (List.mem_cons_of_mem _ hr)
            exact ⟨hr.session, hr.now, hr.judged, (hrow_eq _ (by simp)).trans hr.credential⟩
        obtain ⟨ended, hstored, hstatus, hpassed⟩ := ih hopen' hle hnext hlen
        refine ⟨ended, hstored, hstatus, hpassed.trans ?_⟩
        simp only [QuizSession.advance]
        omega

end

/-! ## Every run -/

/-- The call has returned that its answer, to this session, is wrong. -/
def AnsweredWrong (student quiz : String) (r : Return Key (Row F) QuizCall (Except Raised QuizView)) :
    Bool :=
  match r.call with
  | .start _ => false
  | .answer q => q.studentId = student ∧ q.quizId = quiz ∧ judgedWrong r.result

/-- What holds of a session in a state of a run. -/
structure QuizFair (s : State Key (Row F) QuizCall (Except Raised QuizView)) (student quiz : String) :
    Prop where
  /-- Every answer that was judged wrong has been counted. -/
  counted : (s.returned.filter (AnsweredWrong student quiz)).length ≤
    s.history.countP (Wrong student quiz)
  /-- Two wrong answers lose the quiz, and no credential is issued for it. -/
  lost : 2 ≤ s.history.countP (Wrong student quiz) →
    (∃ session, sessionOf s.table student quiz = some session ∧ session.status = .failed) ∧
      ∀ e ∈ s.history, ¬ Issues student quiz e
  /-- One credential at most is issued, of a quiz that is passed. -/
  issued : ∀ e ∈ s.history, Issues student quiz e →
    ∃ session, sessionOf s.table student quiz = some session ∧ session.status = .passed
  once : s.history.Pairwise fun later earlier =>
    ¬ (Issues student quiz later ∧ Issues student quiz earlier)
  /-- A session that has ended never changes. -/
  final : ∀ e ∈ s.history, ∀ session, sessionOf e.before student quiz = some session →
    session.status ≠ .inProgress → sessionOf e.after student quiz = some session

theorem QuizSound.fair {s : State Key (Row F) QuizCall (Except Raised QuizView)}
    (h : QuizSound s.view) {student quiz : String}
    (hcounted : (s.returned.filter (AnsweredWrong student quiz)).length ≤
      s.history.countP (Wrong student quiz)) : QuizFair s student quiz := by
  refine ⟨hcounted, fun htwo => ?_, fun e he => h.issued e he student quiz, h.once student quiz,
    fun e he => h.final e he student quiz⟩
  have hmistakes : 2 ≤ mistakesOf s.table student quiz := htwo.trans_eq (h.mistakes student quiz).symm
  have hfailed : ∃ session, sessionOf s.table student quiz = some session ∧
      session.status = .failed := by
    unfold mistakesOf at hmistakes
    cases hsession : sessionOf s.table student quiz with
    | none => simp [hsession] at hmistakes
    | some session =>
        refine ⟨session, rfl, ?_⟩
        by_contra hstatus
        have hle := h.lost student quiz session hsession hstatus
        simp only [hsession, Option.elim_some] at hmistakes
        omega
  refine ⟨hfailed, fun e he hissued => ?_⟩
  obtain ⟨session, hsession, hstatus⟩ := hfailed
  obtain ⟨session', hsession', hstatus'⟩ := h.issued e he student quiz hissued
  cases hsession.symm.trans hsession'
  cases hstatus.symm.trans hstatus'

/-- Distinct answers that returned wrong have each counted a mistake. -/
theorem wrong_counted {s : State Key (Row F) QuizCall (Except Raised QuizView)} (hbooked : s.Booked)
    (h : ∀ r ∈ s.returned, ∀ student quiz, AnsweredWrong student quiz r = true →
      ∃ e ∈ s.history, e.id = r.id ∧ Wrong student quiz e = true) (student quiz : String) :
    (s.returned.filter (AnsweredWrong student quiz)).length ≤
      s.history.countP (Wrong student quiz) := by
  have hsub : (s.returned.filter (AnsweredWrong student quiz)).map Return.id ⊆
      (s.history.filter (Wrong student quiz)).map Commit.id := fun i hi => by
    obtain ⟨r, hr, rfl⟩ := List.mem_map.mp hi
    obtain ⟨hr, hwrong⟩ := List.mem_filter.mp hr
    obtain ⟨e, he, hid, hcounts⟩ := h r hr student quiz hwrong
    exact List.mem_map.mpr ⟨e, List.mem_filter.mpr ⟨he, hcounts⟩, hid⟩
  have hnodup : ((s.returned.filter (AnsweredWrong student quiz)).map Return.id).Nodup :=
    (List.filter_sublist.map _).nodup hbooked.returned_once
  have hle := (List.subperm_of_subset hnodup hsub).length_le
  simpa only [List.length_map, List.countP_eq_length_filter] using hle

theorem lesson_quiz_fair {judge : Challenge → String → String → Option Bool} {faults : Faults}
    {t : Table Key (Row F)} {s : State Key (Row F) QuizCall (Except Raised QuizView)}
    (hempty : ∀ student quiz, sessionOf t student quiz = none)
    (h : StepsMeeting (quizService F judge faults) SessionCurrent (.initial t) s) :
    (∀ student quiz, QuizFair s student quiz) ∧
      ∀ (u : Table Key (Row F)) student lesson quiz session (requests : List AnswerLessonQuiz),
        QuizOpen u student lesson quiz session → session.mistakes = 0 →
        (∀ r ∈ requests, r.InTime judge u student lesson quiz session.expiresAt) →
        session.queue.length + 1 ≤ requests.length →
          ∃ ended, sessionOf (answersAlone judge requests u).2 student quiz = some ended ∧
            ended.status ≠ .inProgress ∧ (ended.status = .passed ↔
              (answersAlone judge requests u).1.countP judgedWrong ≤ 1) := by
  refine ⟨fun student quiz => ?_, fun u student lesson quiz session requests hopen hmistakes hin hle => ?_⟩
  · obtain ⟨g, hg⟩ := quiz_kept hempty h
    refine hg.holds.toQuizSound.fair (wrong_counted (Reachable.booked h.steps) ?_ student quiz)
    intro r hr student quiz hwrong
    obtain ⟨w, g', x, hw, hx, hq, -, hsuffix⟩ := hg.returned r hr
    cases hcall : r.call with
    | start q => simp [AnsweredWrong, hcall] at hwrong
    | answer q =>
        cases hresult : r.result with
        | error e => simp [AnsweredWrong, hcall, hresult, judgedWrong] at hwrong
        | ok view =>
            obtain ⟨rfl, rfl, hview⟩ : q.studentId = student ∧ q.quizId = quiz ∧
                view.correct = some false := by
              simpa [AnsweredWrong, hcall, hresult, judgedWrong] using hwrong
            obtain ⟨owes, rfl⟩ := hq view false hresult hview
            obtain ⟨e, he, hid, hcounts⟩ := hw.counted r.id q false owes (hcall ▸ hx)
            exact ⟨e, hsuffix.subset he, hid, hcounts rfl⟩
  · have hended := answersAlone_ends hopen (by omega) hin (by omega)
    rwa [hmistakes, Nat.zero_add] at hended

/-! ## Answers in turn, and two at once -/

theorem submits_answeredView (r : AnswerLessonQuiz) (session : QuizSession) (progress : QuizProgress)
    (correct : Bool) : (answeredView r session progress correct : Handler F _).run.Submits
      fun ops => ¬ ∃ w ∈ ops, w.key = .practice r.session := by
  refine RowStore.Handler.submits_bind (readOnly_quizView session progress).submits fun view => ?_
  split
  · refine RowStore.Handler.submits_bind (RowStore.Handler.submits_bind
      readOnly_writeGeneration.submits fun generation => submits_transact_bind ?_ trivial)
      fun _ => trivial
    simp [putTransaction, fenceCheck, Write.check, Write.putNew, Write.put]
  · trivial

/-- An answer that runs alone writes the session that it has read. -/
theorem AnswerLessonQuiz.aloneMeets (judge : Challenge → String → String → Option Bool)
    (r : AnswerLessonQuiz) (t : Table Key (Row F)) :
    (answerLessonQuiz judge r : Handler F _).run.AloneMeets (SessionCurrent (.answer r)) t := by
  have hview : ∀ session progress correct (u : Table Key (Row F)),
      (answeredView r session progress correct : Handler F _).run.AloneMeets
        (SessionCurrent (.answer r)) u := fun session progress correct u =>
    (submits_answeredView r session progress correct).aloneMeets
      (fun ops next u hops hnames => absurd hnames hops) u
  refine RowStore.Handler.aloneMeets_get_bind ?_
  cases hrow : t.row (.practice (.quizSession r.studentId r.quizId)) with
  | none => trivial
  | some row =>
      dsimp only
      split_ifs with _ hstatus
      all_goals try trivial
      have hstored : sessionOf t r.studentId r.quizId = some row.item :=
        congrArg (Option.map fun row : Owned QuizSession => row.item) hrow
      rw [answerSession_eq]
      refine RowStore.Handler.aloneMeets_readOnly_bind (readOnly_resolveNext _) fun found => ?_
      rcases found with _ | ⟨challenge, asked, queue⟩
      · refine RowStore.Handler.aloneMeets_readOnly_bind readOnly_writeGeneration fun generation => ?_
        exact ⟨fun ha => ⟨fun _ => ⟨row.item, hstored, not_not.mp hstatus, generation, .inl rfl⟩,
          trivial⟩, fun _ => trivial⟩
      · dsimp only
        split
        · trivial
        · refine RowStore.Handler.aloneMeets_readOnly_bind readOnly_writeGeneration fun generation => ?_
          exact ⟨fun ha => ⟨fun _ => ⟨row.item, hstored, not_not.mp hstatus, generation,
            .inr ⟨_, _, _, rfl⟩⟩, hview _ _ _ _⟩, fun _ => trivial⟩

namespace LessonQuizSample

def judge (challenge : Challenge) (answer _locale : String) : Option Bool :=
  some (answer = challenge.content)

def exercise (id : String) : Challenge := ⟨id, "lesson", "subject", "topic", "right"⟩

def start : Table Key (Row Float) := Table.empty.apply [
  .putNew (.accountFence "student") ⟨"active", some 1⟩,
  .putNew (.challenge "a") (exercise "a"),
  .putNew (.challenge "b") (exercise "b")]

def opening : StartLessonQuiz where
  studentId := "student"
  lessonId := "lesson"
  kind := TEST_OUT_QUIZ
  exerciseIds := ["a", "b"]
  answeredRight := []
  rng := ⟨id, id⟩
  quizId := "quiz"
  now := 0

def answer (text credential : String) : AnswerLessonQuiz where
  studentId := "student"
  lessonId := "lesson"
  quizId := "quiz"
  answer := text
  locale := "de"
  now := 0
  credentialId := credential
  credentialAt := 0

abbrev Run := State Key (Row Float) QuizCall (Except Raised QuizView)

def service : Service Key (Row Float) QuizCall (Except Raised QuizView) :=
  quizService Float judge .strongReads

def opened : Run := (State.initial start).solo service (.start opening) []

/-- Two answers in turn, and both are wrong. -/
def lost : Run :=
  (opened.solo service (.answer (answer "wrong" "one")) []).solo service
    (.answer (answer "wrong" "two")) []

/-- Two wrong answers read the same session; two right ones follow. -/
def passed : Run :=
  (((((opened.launch service (.answer (answer "wrong" "one"))).advance 1 3).solo service
    (.answer (answer "wrong" "two")) []).advance 1 2).solo service
      (.answer (answer "right" "three")) []).solo service (.answer (answer "right" "four")) []

theorem start_empty (student quiz : String) : sessionOf start student quiz = none := by
  rw [sessionOf, start, Table.row_apply_of_notMem _ _ _ (by simp [Write.putNew, Write.put])]
  rfl

theorem opening_meets (t : Table Key (Row Float)) :
    (service.body (.start opening)).AloneMeets (SessionCurrent (.start opening)) t :=
  Program.aloneMeets_of_forall (fun _ _ => trivial) _ t

theorem lost_meeting : StepsMeeting service SessionCurrent (.initial start) lost :=
  .solo (.solo (.solo .refl trivial (opening_meets _)) trivial (AnswerLessonQuiz.aloneMeets _ _ _))
    trivial (AnswerLessonQuiz.aloneMeets _ _ _)

theorem passed_reachable : Reachable service start passed := by
  have hsolo : ∀ (s : Run) c, Steps service s (s.solo service c []) := fun s c =>
    State.solo_steps (S := service) trivial trivial trivial []
  exact (hsolo _ _).trans (.trans (State.launch_steps trivial) (.trans (State.advance_steps 1 3 _)
    (.trans (hsolo _ _) (.trans (State.advance_steps 1 2 _) (.trans (hsolo _ _) (hsolo _ _))))))

def session : QuizSession where
  quizId := "quiz"
  lessonId := "lesson"
  kind := TEST_OUT_QUIZ
  queue := ["a", "b"]
  mistakes := 0
  status := .inProgress
  createdAt := 0
  expiresAt := 1800

theorem opened_open : QuizOpen opened.table "student" "lesson" "quiz" session where
  fence := ⟨1, by decide⟩
  stored := ⟨1, rfl⟩
  lesson := rfl
  status := rfl
  queue := by decide
  resolves := by decide

def inTurn : List AnswerLessonQuiz :=
  [answer "wrong" "one", answer "right" "two", answer "right" "three"]

theorem inTurn_inTime (r : AnswerLessonQuiz) (hr : r ∈ inTurn) :
    r.InTime judge opened.table "student" "lesson" "quiz" session.expiresAt := by
  have hone : ∀ text credential, (answer text credential).InTime judge opened.table "student"
      "lesson" "quiz" session.expiresAt := fun text credential =>
    ⟨⟨rfl, rfl, rfl⟩, show (0 : ℤ) / 1000000 < 1800 by decide, fun _ => rfl, rfl⟩
  rcases List.mem_cons.mp hr with rfl | hr
  · exact hone _ _
  · rcases List.mem_cons.mp hr with rfl | hr
    · exact hone _ _
    · cases List.mem_singleton.mp hr
      exact hone _ _

end LessonQuizSample

theorem lesson_quiz_fair_sample : QuizFair LessonQuizSample.lost "student" "quiz" ∧
    ∃ ended, sessionOf (answersAlone LessonQuizSample.judge LessonQuizSample.inTurn
        LessonQuizSample.opened.table).2 "student" "quiz" = some ended ∧
      ended.status ≠ .inProgress ∧ (ended.status = .passed ↔
        (answersAlone LessonQuizSample.judge LessonQuizSample.inTurn
          LessonQuizSample.opened.table).1.countP judgedWrong ≤ 1) :=
  have h := lesson_quiz_fair LessonQuizSample.start_empty LessonQuizSample.lost_meeting
  ⟨h.1 "student" "quiz", h.2 _ _ "lesson" _ _ _ LessonQuizSample.opened_open rfl
    LessonQuizSample.inTurn_inTime (by decide)⟩

/-- Two answers have returned that they are wrong, and the quiz is passed. -/
theorem passed_with_two_mistakes : ∃ s, Reachable LessonQuizSample.service LessonQuizSample.start s ∧
    (∀ student quiz, sessionOf LessonQuizSample.start student quiz = none) ∧
    (s.returned.filter (AnsweredWrong "student" "quiz")).length = 2 ∧
    (sessionOf s.table "student" "quiz").map QuizSession.status = some .passed ∧
    (s.table.row (.practice (.quizCredential "student" "four"))).isSome :=
  ⟨LessonQuizSample.passed, LessonQuizSample.passed_reachable, LessonQuizSample.start_empty,
    by decide⟩

end Stoa.Practice
