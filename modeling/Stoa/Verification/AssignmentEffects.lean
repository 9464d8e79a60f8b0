import Stoa.Verification.Assignments
import Stoa.Store.Runs

/-! # The effect of a completion

A call claims the pending effect, executes it and clears it. The table does not check
that the effect is still pending, so that it is executed once only where no claim
meets an effect that is under way or gone. -/

namespace Stoa.Assignment

open RowStore

abbrev Entry := Commit Key Item Call

abbrev Run := State Key Item Call (Except Raised (Option Row))

/-! ## What a commit does to an assignment -/

/-- The commit has the one row before it, and the other after it. -/
def Changes (id : String) (e : Entry) (row row' : Row) : Prop :=
  e.before.row (.assignment id) = some row ∧ e.after.row (.assignment id) = some row'

/-- The completion that a transition records. -/
structure Completion (r : Transition) (row : Row) : Prop where
  completedAt : row.completedAt = some r.now
  studentAnswer : row.studentAnswer = r.studentAnswer
  correct : row.completionResult.map CompletionResult.correct = r.correct

/-- The commit is the completion of the assignment by a transition. -/
structure Completes (id : String) (e : Entry) (r : Transition) : Prop where
  call : e.call = .transition r
  assignment : r.assignmentId = id
  verb : r.verb = .complete
  change : ∃ row row', Changes id e row row' ∧ row.completedAt = none ∧ row'.status = .completed ∧ Completion r row'

/-- The commit takes the effect, to execute it, with a token of its call. -/
def Claims (id : String) (e : Entry) (claimToken : String) : Prop :=
  ∃ r row effect, e.call = .transition r ∧ r.assignmentId = id ∧
    Changes id e row { row with pendingSequencingEffect := some effect } ∧ row.pendingSequencingEffect ≠ some effect ∧
    effect.state = .processing ∧ effect.claimToken = some claimToken ∧ (claimToken = r.found.claimToken ∨ claimToken = r.own.claimToken)

/-- The commit clears the effect. -/
def Clears (id : String) (e : Entry) : Prop :=
  ∃ row row', Changes id e row row' ∧ row.pendingSequencingEffect.isSome ∧ row'.pendingSequencingEffect = none

/-- The commit records the attempt of the assignment. -/
def Records (id : String) (e : Entry) : Prop :=
  ∃ student attempt, e.before.row (.attempt student (attemptId id)) = none ∧
    e.after.row (.attempt student (attemptId id)) = some attempt

/-- The effect is under way, with a token. -/
def Row.Taken (row : Row) (claimToken : String) : Prop :=
  ∃ effect, row.pendingSequencingEffect = some effect ∧ effect.state = .processing ∧ effect.claimToken = some claimToken

/-- The effect is still to be executed. -/
def Row.IsPending (row : Row) : Prop :=
  ∃ effect, row.pendingSequencingEffect = some effect ∧ effect.state = .pending

section

variable {id : String} {e : Entry} {r : Transition} {row row' : Row} {t : Table Key Item} {token : String}

theorem Move.moves (h : Move e.call e.before e.after) (hinv : Inv e.before)
    (hrow : e.before.row (.assignment id) = some row) :
    ∃ row', e.after.row (.assignment id) = some row' ∧ row.Extends row' ∧
      (row'.status = row.status ∨ Moves row.status row'.status) ∧
      (row.completedAt = none → row'.completedAt.isSome → ∃ r, Completes id e r) := by
  have hsame : e.after.row (.assignment id) = e.before.row (.assignment id) →
      ∃ row' : Row, e.after.row (.assignment id) = some row' ∧ row.Extends row' ∧
        (row'.status = row.status ∨ Moves row.status row'.status) ∧
        (row.completedAt = none → row'.completedAt.isSome → ∃ r, Completes id e r) := fun heq =>
    ⟨row, heq.trans hrow, .refl row, .inl rfl, fun hnone hsome => by simp [hnone] at hsome⟩
  generalize hcall : e.call = c at h
  cases h with
  | elsewhere h => exact hsame (h _ (ofAssignments_assignment _))
  | created id' row' habsent hrow' hothers hstatus hat heffect =>
      by_cases hid : id = id'
      · subst hid
        cases habsent.symm.trans hrow
      · exact hsame (hothers _ (ofAssignments_assignment _) (by simpa using hid))
  | recorded r hc student attempt habsent hstored hothers h =>
      exact hsame (hothers _ (ofAssignments_assignment _) (by simp))
  | updated r hc old row' hold hrow' hothers h =>
      by_cases hid : id = r.assignmentId
      · subst hid
        cases hold.symm.trans hrow
        have hsound := Inv.assignment hinv _ _ hold
        refine ⟨row', hrow', h.extends_ hsound, ?_⟩
        cases h with
        | claim effect => exact ⟨.inl rfl, fun hnone hsome => by simp [hnone] at hsome⟩
        | clear appliedAt => exact ⟨.inl rfl, fun hnone hsome => by simp [hnone] at hsome⟩
        | turn item _ hturn hitem hextends hstatus =>
            cases hturn with
            | moved hsame hmoves hcompleted =>
                refine ⟨hstatus ▸ hmoves, fun hnone hsome => ?_⟩
                simp [hsame.completedAt, hnone] at hsome
            | replayed hcompleted hs hsource heffect hat hanswer hresult =>
                refine ⟨.inl (by rw [hs, hstatus, hcompleted]), fun hnone _ => ?_⟩
                simp [(hextends.completion_eq (r := r) hitem hcompleted).1] at hnone
            | completed hverb hfrom hs hsource hat hanswer hresult heffect =>
                refine ⟨.inr ?_, fun hnone _ => ⟨r, hcall.trans hc, rfl, hverb, row, row', ⟨hrow, hrow'⟩, hnone, hs,
                  ?_, hanswer, hresult⟩⟩
                · rw [hs, hstatus]
                  exact .complete hfrom
                · have hopen : item.completedAt = none := by
                    by_contra hsome
                    have hlater := hitem.later (Option.isSome_iff_ne_none.mpr hsome)
                    rcases hfrom with h | h | h <;> simp [h] at hlater
                  rw [hat, hopen]
                  rfl
      · exact hsame (hothers _ (ofAssignments_assignment _) (by simpa using hid))

/-- A row that was not there before is not completed. -/
theorem Move.fresh {c : Call} {t' : Table Key Item} (h : Move c t t') (hnone : t.row (.assignment id) = none)
    (hrow : t'.row (.assignment id) = some row) : row.completedAt = none := by
  have hsame : t'.row (.assignment id) = t.row (.assignment id) → row.completedAt = none := fun heq => by
    cases hnone.symm.trans (heq.symm.trans hrow)
  cases h with
  | elsewhere h => exact hsame (h _ (ofAssignments_assignment _))
  | created id' row' habsent hrow' hothers hstatus hat heffect =>
      by_cases hid : id = id'
      · subst hid
        cases hrow.symm.trans hrow'
        exact hat
      · exact hsame (hothers _ (ofAssignments_assignment _) (by simpa using hid))
  | recorded r hc student attempt habsent hstored hothers h =>
      exact hsame (hothers _ (ofAssignments_assignment _) (by simp))
  | updated r hc old row' hold hrow' hothers h =>
      by_cases hid : id = r.assignmentId
      · subst hid
        cases hnone.symm.trans hold
      · exact hsame (hothers _ (ofAssignments_assignment _) (by simpa using hid))

end

/-! ## Who records the attempt -/

/-- The call has claimed the effect, or another call has with its token. -/
def HasClaim (history : List Entry) (r : Transition) : Prop :=
  ∃ e ∈ history, ∃ token, Claims r.assignmentId e token ∧ (token = r.found.claimToken ∨ token = r.own.claimToken)

theorem HasClaim.cons {history : List Entry} {r : Transition} (h : HasClaim history r) (e : Entry) :
    HasClaim (e :: history) r := by
  obtain ⟨e', he', hclaims⟩ := h
  exact ⟨e', List.mem_cons_of_mem _ he', hclaims⟩

/-- Every effect under way was claimed, and every attempt was recorded with a claim. A
call that is sure of its claim carries its transition. -/
structure Claimed (w : View Key Item Call) (g : ℕ → Option (Option Transition)) : Prop where
  taken : ∀ id (row : Row) token, w.table.row (.assignment id) = some row → row.Taken token →
    ∃ e ∈ w.history, Claims id e token
  sure : ∀ i r, g i = some (some r) → HasClaim w.history r
  recorded : ∀ e ∈ w.history, ∀ id, Records id e →
    ∃ r, e.call = .transition r ∧ r.assignmentId = id ∧ HasClaim w.history r

section

variable {w : View Key Item Call} {g : ℕ → Option (Option Transition)} {i : ℕ} {c : Call}
  {ops : List (Write Key Item)} {r : Transition}

theorem Claimed.learn {x : Option (Option Transition)} (h : Claimed w g)
    (hx : ∀ r, x = some (some r) → HasClaim w.history r) : Claimed w (Function.update g i x) where
  taken := h.taken
  sure j r hj := by
    by_cases hij : j = i
    · subst hij
      rw [Function.update_self] at hj
      exact hx r hj
    · rw [Function.update_of_ne hij] at hj
      exact h.sure j r hj
  recorded := h.recorded

theorem Claimed.commit (h : Claimed w g)
    (htaken : ∀ id (row : Row) token, (w.table.apply ops).row (.assignment id) = some row → row.Taken token →
      ∃ e ∈ (w.commit i c ops).history, Claims id e token)
    (hrecorded : ∀ id, Records id ⟨i, c, w.clock, w.table, w.table.apply ops⟩ →
      ∃ r, c = .transition r ∧ r.assignmentId = id ∧ HasClaim w.history r) : Claimed (w.commit i c ops) g where
  taken := htaken
  sure j r hj := (h.sure j r hj).cons _
  recorded e he id hrecords := by
    rcases List.mem_cons.mp he with rfl | he
    · obtain ⟨r, hc, hid, hclaim⟩ := hrecorded id hrecords
      exact ⟨r, hc, hid, hclaim.cons _⟩
    · obtain ⟨r, hc, hid, hclaim⟩ := h.recorded e he id hrecords
      exact ⟨r, hc, hid, hclaim.cons _⟩

/-- The commit of a claim. -/
theorem Claimed.claimed {row : Row} {effect : PendingEffect} {claimToken : String} (h : Claimed w g)
    (hrow : w.table.row (.assignment r.assignmentId) = some row)
    (hafter : (w.table.apply ops).row (.assignment r.assignmentId) =
      some { row with pendingSequencingEffect := some effect })
    (hothers : ∀ k, k ≠ .assignment r.assignmentId → (w.table.apply ops).row k = w.table.row k)
    (hstate : effect.state = .processing) (heffect : effect.claimToken = some claimToken)
    (htoken : claimToken = r.found.claimToken ∨ claimToken = r.own.claimToken) :
    Claimed (w.commit i (.transition r) ops) (Function.update g i (some (some r))) := by
  have hclaims : ∃ e ∈ (w.commit i (.transition r) ops).history, Claims r.assignmentId e claimToken := by
    by_cases hsame : row.pendingSequencingEffect = some effect
    · obtain ⟨e, he, hold⟩ := h.taken _ row claimToken hrow ⟨effect, hsame, hstate, heffect⟩
      exact ⟨e, List.mem_cons_of_mem _ he, hold⟩
    · exact ⟨_, List.mem_cons_self .., r, row, effect, rfl, rfl, ⟨hrow, hafter⟩, hsame, hstate, heffect, htoken⟩
  refine Claimed.learn (h.commit (fun id row' token hrow' htaken => ?_) fun id hrecords => ?_) fun r' heq => ?_
  · by_cases hid : id = r.assignmentId
    · subst hid
      cases hafter.symm.trans hrow'
      obtain ⟨_, heq, -, htoken'⟩ := htaken
      cases heq
      cases heffect.symm.trans htoken'
      exact hclaims
    · obtain ⟨e, he, hold⟩ := h.taken id row' token (by rw [← hothers _ (by simpa using hid), hrow']) htaken
      exact ⟨e, List.mem_cons_of_mem _ he, hold⟩
  · obtain ⟨student, attempt, hnone, hsome⟩ := hrecords
    cases hnone.symm.trans ((hothers _ (by simp)).symm.trans hsome)
  · cases heq
    obtain ⟨e, he, hclaims⟩ := hclaims
    exact ⟨e, he, claimToken, hclaims, htoken⟩

/-- A turn claims nothing. -/
theorem Turn.taken {item row row' : Row} {token : String} (h : Turn r item row row') (htaken : row'.Taken token) :
    row.Taken token := by
  obtain ⟨effect, heffect, hstate, htoken⟩ := htaken
  cases h with
  | moved hsame => exact ⟨effect, hsame.effect ▸ heffect, hstate, htoken⟩
  | replayed _ _ _ hsame => exact ⟨effect, hsame ▸ heffect, hstate, htoken⟩
  | completed _ _ _ _ _ _ _ hnew =>
      cases hnew.symm.trans heffect
      cases hstate

end

section

attribute [local irreducible] generation

variable {F : Access Key Item} {i : ℕ} {c : Call} {α β : Type} {x : Option Transition} {r : Transition}
  {Cond : Program Key Item (Except Raised β) → Table Key Item → Prop} {Q : Except Raised β → Option Transition → Prop}

end

/-! ## Every run -/

section

variable {faults : Faults} {t : Table Key Item} {s : Run} {id : String} {row : Row}

theorem Claims.over {e : Entry} {token : String} (h : Claims id e token) (hinv : Inv e.after) :
    ∃ row : Row, e.after.row (.assignment id) = some row ∧ row.completedAt.isSome ∧ ¬ row.IsPending := by
  obtain ⟨r, row, effect, -, -, ⟨-, hafter⟩, -, hstate, -⟩ := h
  refine ⟨_, hafter, ((hinv.assignment _ _ hafter).effect effect rfl).1, ?_⟩
  rintro ⟨_, heq, hpending⟩
  cases heq
  cases hstate.symm.trans hpending

theorem Clears.over {e : Entry} (h : Clears id e) (hinv : Inv e.before) (hkeeps : Keeps e.before e.after) :
    ∃ row : Row, e.after.row (.assignment id) = some row ∧ row.completedAt.isSome ∧ ¬ row.IsPending := by
  obtain ⟨row, row', ⟨hbefore, hafter⟩, hsome, hnone⟩ := h
  obtain ⟨effect, heffect⟩ := Option.isSome_iff_exists.mp hsome
  have hcompleted := ((hinv.assignment _ _ hbefore).effect effect heffect).1
  obtain ⟨_, hrow', hextends⟩ := hkeeps.assignment id row hbefore
  cases hrow'.symm.trans hafter
  refine ⟨row', hafter, (hextends.completion hcompleted).1 ▸ hcompleted, ?_⟩
  rintro ⟨_, heq, -⟩
  cases hnone.symm.trans heq

end

/-! ## Concrete runs -/

namespace CompletionSample

def source : Source where
  studentId := "student"
  sourceType := "lesson"
  sourceId := "lesson"
  subject := "mathematics"
  topicIds := ["fractions"]
  lessonId := "lesson"
  exerciseId := some "exercise"
  createdAt := 0

def stored : Table Key Item := Table.empty.apply [.put (.accountFence "student") ⟨"active", some 1⟩ fun _ => true]

def readings (claimToken : String) : Readings := ⟨claimToken, 2, 2, 2⟩

/-- A student, or a teacher, completes the assignment. -/
def completion (answer : Option String) (token : String) : Transition where
  assignmentId := "assignment"
  verb := .complete
  studentAnswer := answer
  correct := some true
  now := 1
  transitionToken := token
  found := readings (token ++ "-found")
  own := readings (token ++ "-own")

abbrev backend : Service Key Item Call (Except Raised (Option Row)) := service .strongReads

def created : Run := (State.initial stored).solo backend (.create ⟨"assignment", source, .assigned⟩) []

/-- A completion alone. -/
def alone (answer : Option String) : Run := created.solo backend (.transition (completion answer "first")) []

/-- While the first call executes the effect, a retried call finds it under way. -/
def overlapped : Run :=
  (((created.launch backend (.transition (completion none "first"))).advance 1 7).solo backend
    (.transition (completion none "second")) []).finish 1 []

theorem created_reachable : Reachable backend stored created := State.solo_steps trivial trivial trivial _

theorem overlapped_reachable : Reachable backend stored overlapped :=
  (((created_reachable.trans (State.launch_steps trivial)).trans (State.advance_steps _ _ _)).trans
    (State.solo_steps trivial trivial trivial _)).trans (State.finish_steps trivial trivial _ _ _)

end CompletionSample

open CompletionSample

end Stoa.Assignment
