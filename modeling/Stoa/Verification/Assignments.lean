import Stoa.Model.Assignment
import Stoa.Store.Log

/-! # An assignment is completed once

A completion is final, and only one is ever recorded. Its effect leaves one attempt,
with the verdict of the completion, but never with its answer. -/

namespace Stoa.Assignment

open RowStore

/-! ## Rows over time -/

/-- A row as the transitions leave it. -/
structure Row.Sound (row : Row) : Prop where
  completed : row.status = .completed → row.completedAt.isSome
  later : row.completedAt.isSome → row.status = .completed ∨ row.status = .archived
  effect : ∀ effect, row.pendingSequencingEffect = some effect → row.completedAt.isSome ∧
    effect.event = .completed ∧ effect.correct = row.completionResult.map CompletionResult.correct

/-- What may become of an assignment: a completion stays as it is. -/
structure Row.Extends (row row' : Row) : Prop where
  source : row'.source = row.source
  completion : row.completedAt.isSome → row'.completedAt = row.completedAt ∧
    row'.studentAnswer = row.studentAnswer ∧ row'.completionResult = row.completionResult
  archived : row.status = .archived → row'.status = .archived
  /-- After the completion no effect becomes pending. -/
  pending : row.completedAt.isSome → ∀ effect, row'.pendingSequencingEffect = some effect → effect.state = .pending →
    row.pendingSequencingEffect = some effect

theorem Row.Extends.refl (row : Row) : row.Extends row := ⟨rfl, fun _ => ⟨rfl, rfl, rfl⟩, id, fun _ _ h _ => h⟩

theorem Row.Extends.trans {a b c : Row} (hab : a.Extends b) (hbc : b.Extends c) : a.Extends c where
  source := hbc.source.trans hab.source
  completion h := by
    obtain ⟨hat, hanswer, hresult⟩ := hab.completion h
    obtain ⟨hat', hanswer', hresult'⟩ := hbc.completion (hat ▸ h)
    exact ⟨hat'.trans hat, hanswer'.trans hanswer, hresult'.trans hresult⟩
  archived h := hbc.archived (hab.archived h)
  pending h effect heffect hstate :=
    hab.pending h effect (hbc.pending ((hab.completion h).1 ▸ h) effect heffect hstate) hstate

/-- The moves that the status may make. -/
inductive Moves : Status → Status → Prop where
  | start {from_ : Status} (h : from_ = .recommended ∨ from_ = .assigned) : Moves from_ .started
  | complete {from_ : Status} (h : from_ = .recommended ∨ from_ = .assigned ∨ from_ = .started) :
      Moves from_ .completed
  | skip {from_ : Status} (h : from_ = .draft ∨ from_ = .recommended ∨ from_ = .assigned ∨ from_ = .started) :
      Moves from_ .skipped
  | archive (from_ : Status) : Moves from_ .archived

/-- The completion, and what is left of its effect, are the same. -/
structure Row.SameCompletion (row row' : Row) : Prop where
  source : row'.source = row.source
  completedAt : row'.completedAt = row.completedAt
  studentAnswer : row'.studentAnswer = row.studentAnswer
  completionResult : row'.completionResult = row.completionResult
  effect : row'.pendingSequencingEffect = row.pendingSequencingEffect

/-- What a transition that has found `item` makes of the row. -/
inductive Turn (r : Transition) (item row row' : Row) : Prop where
  | moved (hsame : row.SameCompletion row') (hmoves : row'.status = item.status ∨ Moves item.status row'.status)
      (hcompleted : row'.status = .completed → item.status = .completed)
  | replayed (hitem : item.status = .completed) (hstatus : row'.status = .completed)
      (hsource : row'.source = row.source) (heffect : row'.pendingSequencingEffect = row.pendingSequencingEffect)
      (hat : row'.completedAt = some (item.completedAt.getD r.now)) (hanswer : row'.studentAnswer = item.studentAnswer)
      (hresult : row'.completionResult = item.completionResult)
  | completed (hverb : r.verb = .complete)
      (hitem : item.status = .recommended ∨ item.status = .assigned ∨ item.status = .started)
      (hstatus : row'.status = .completed) (hsource : row'.source = row.source)
      (hat : row'.completedAt = some (item.completedAt.getD r.now)) (hanswer : row'.studentAnswer = r.studentAnswer)
      (hresult : row'.completionResult.map CompletionResult.correct = r.correct)
      (heffect : row'.pendingSequencingEffect = some ⟨.pending, .completed, r.correct, r.transitionToken, none⟩)

section

variable {r : Transition} {item row row' : Row} {change : Change}

theorem Transition.turn (h : r.change item = .ok change) (hstatus : row.status = item.status) :
    Turn r item row (change.updates row) := by
  cases hverb : r.verb with
  | start =>
      simp only [Transition.change, hverb, Transition.start] at h
      split at h
      · rename_i hitem
        cases h
        exact .moved ⟨rfl, rfl, rfl, rfl, rfl⟩ (.inr (.start hitem.symm)) fun hs => by cases hs
      · split at h
        · cases h
          exact .moved ⟨rfl, rfl, rfl, rfl, rfl⟩ (.inl hstatus) fun hs => hstatus ▸ hs
        · cases h
  | complete =>
      simp only [Transition.change, hverb, Transition.complete] at h
      split at h
      · rename_i hitem
        cases h
        exact .replayed hitem rfl rfl rfl rfl rfl rfl
      · split at h
        · rename_i hitem
          cases h
          refine .completed hverb ?_ rfl rfl rfl rfl ?_ rfl
          · rcases hitem with h | h | h
            · exact .inr (.inl h)
            · exact .inl h
            · exact .inr (.inr h)
          · cases r.correct <;> rfl
        · cases h
  | skip =>
      simp only [Transition.change, hverb, Transition.skip] at h
      split at h
      · cases h
      · rename_i hitem
        cases h
        refine .moved ⟨rfl, rfl, rfl, rfl, rfl⟩ ?_ fun hs => by cases hs
        cases hfrom : item.status with
        | skipped => exact .inl rfl
        | completed => exact absurd (.inl hfrom) hitem
        | archived => exact absurd (.inr hfrom) hitem
        | draft => exact .inr (.skip (.inl rfl))
        | recommended => exact .inr (.skip (.inr (.inl rfl)))
        | assigned => exact .inr (.skip (.inr (.inr (.inl rfl))))
        | started => exact .inr (.skip (.inr (.inr (.inr rfl))))
  | archive =>
      simp only [Transition.change, hverb, Transition.archive] at h
      cases h
      exact .moved ⟨rfl, rfl, rfl, rfl, rfl⟩ (.inr (.archive _)) fun hs => by cases hs

/-- What a transition may do to the row of its assignment. -/
inductive Updated (r : Transition) (row : Row) : Row → Prop where
  | claim (effect : PendingEffect) (hprocessing : effect.state = .processing)
      (htoken : effect.claimToken = some r.found.claimToken ∨ effect.claimToken = some r.own.claimToken)
      (hcompleted : row.completedAt.isSome) (hevent : effect.event = .completed)
      (hcorrect : effect.correct = row.completionResult.map CompletionResult.correct) :
      Updated r row { row with pendingSequencingEffect := some effect }
  | clear (appliedAt : Instant) :
      Updated r row { row with pendingSequencingEffect := none, sequencingEffectAppliedAt := some appliedAt }
  | turn (item row' : Row) (hturn : Turn r item row row') (hsound : item.Sound) (hextends : item.Extends row)
      (hstatus : row.status = item.status) : Updated r row row'

/-- A completion that was found is the one that is stored. -/
theorem Row.Extends.completion_eq (h : item.Extends row) (hsound : item.Sound) (hitem : item.status = .completed) :
    row.completedAt = some (item.completedAt.getD r.now) ∧ row.studentAnswer = item.studentAnswer ∧
      row.completionResult = item.completionResult := by
  have hsome := hsound.completed hitem
  obtain ⟨hat, hrest⟩ := h.completion hsome
  refine ⟨?_, hrest⟩
  obtain ⟨at_, hat'⟩ := Option.isSome_iff_exists.mp hsome
  rw [hat, hat']
  rfl

theorem Updated.sound (h : Updated r row row') (hrow : row.Sound) : row'.Sound := by
  cases h with
  | claim effect hprocessing htoken hcompleted hevent hcorrect =>
      refine ⟨hrow.completed, hrow.later, fun effect' heffect => ?_⟩
      cases heffect
      exact ⟨hcompleted, hevent, hcorrect⟩
  | clear appliedAt => exact ⟨hrow.completed, hrow.later, fun _ heffect => by cases heffect⟩
  | turn item row' hturn hsound hextends hstatus =>
      cases hturn with
      | moved hsame hmoves hcompleted =>
          refine ⟨fun hs => ?_, fun hs => ?_, fun effect heffect => ?_⟩
          · rw [hsame.completedAt]
            exact hrow.completed (hstatus ▸ hcompleted hs)
          · rw [hsame.completedAt] at hs
            have hlater := hrow.later hs
            rw [hstatus] at hlater
            rcases hmoves with heq | hmoves
            · rwa [heq]
            · generalize row'.status = next at hmoves ⊢
              cases hmoves with
              | archive => exact .inr rfl
              | start hfrom => rcases hfrom with h | h <;> simp [h] at hlater
              | complete hfrom => exact .inl rfl
              | skip hfrom => rcases hfrom with h | h | h | h <;> simp [h] at hlater
          · rw [hsame.effect] at heffect
            rw [hsame.completedAt, hsame.completionResult]
            exact hrow.effect effect heffect
      | replayed hitem hs hsource heffect hat hanswer hresult =>
          refine ⟨fun _ => by rw [hat]; rfl, fun _ => .inl hs, fun effect he => ?_⟩
          rw [heffect] at he
          obtain ⟨-, hevent, hcorrect⟩ := hrow.effect effect he
          refine ⟨by rw [hat]; rfl, hevent, ?_⟩
          rw [hresult, ← (hextends.completion_eq (r := r) hsound hitem).2.2, hcorrect]
      | completed hverb hitem hs hsource hat hanswer hresult heffect =>
          refine ⟨fun _ => by rw [hat]; rfl, fun _ => .inl hs, fun effect he => ?_⟩
          rw [heffect] at he
          cases he
          exact ⟨by rw [hat]; rfl, rfl, hresult.symm⟩

theorem Updated.extends_ (h : Updated r row row') (hrow : row.Sound) : row.Extends row' := by
  cases h with
  | claim effect hprocessing htoken hcompleted hevent hcorrect =>
      refine ⟨rfl, fun _ => ⟨rfl, rfl, rfl⟩, id, fun _ effect' heffect hstate => ?_⟩
      cases heffect
      cases hprocessing.symm.trans hstate
  | clear appliedAt => exact ⟨rfl, fun _ => ⟨rfl, rfl, rfl⟩, id, fun _ _ heffect => by cases heffect⟩
  | turn item row' hturn hsound hextends hstatus =>
      cases hturn with
      | moved hsame hmoves hcompleted =>
          refine ⟨hsame.source, fun _ => ⟨hsame.completedAt, hsame.studentAnswer, hsame.completionResult⟩, fun hs => ?_,
            fun _ effect heffect _ => hsame.effect ▸ heffect⟩
          rw [hstatus] at hs
          rcases hmoves with heq | hmoves
          · rw [heq, hs]
          · generalize row'.status = next at hmoves ⊢
            cases hmoves with
            | archive => rfl
            | start hfrom => rcases hfrom with h | h <;> simp [h] at hs
            | complete hfrom => rcases hfrom with h | h | h <;> simp [h] at hs
            | skip hfrom => rcases hfrom with h | h | h | h <;> simp [h] at hs
      | replayed hitem hs hsource heffect hat hanswer hresult =>
          obtain ⟨hat', hanswer', hresult'⟩ := hextends.completion_eq (r := r) hsound hitem
          refine ⟨hsource, fun _ => ⟨hat.trans hat'.symm, hanswer.trans hanswer'.symm, hresult.trans hresult'.symm⟩,
            fun harchived => ?_, fun _ effect he _ => heffect ▸ he⟩
          rw [hstatus, hitem] at harchived
          cases harchived
      | completed hverb hitem hs hsource hat hanswer hresult heffect =>
          have hopen : ¬ row.completedAt.isSome := fun hsome => by
            have hlater := hrow.later hsome
            rw [hstatus] at hlater
            rcases hitem with h | h | h <;> simp [h] at hlater
          refine ⟨hsource, fun hsome => absurd hsome hopen, fun harchived => ?_, fun hsome => absurd hsome hopen⟩
          rw [hstatus] at harchived
          rcases hitem with h | h | h <;> simp [h] at harchived

end

/-! ## What the calls do to the table -/

/-- The attempt is that of the completion, with no answer. -/
structure Row.Records (row : Row) (student : String) (attempt : Attempt) : Prop where
  student : row.source.studentId = student
  completed : row.completedAt.isSome
  exercise : row.source.exerciseId.getD "" ≠ ""
  correct : row.completionResult.map CompletionResult.correct = some attempt.correct
  answer : attempt.studentAnswer = ""

theorem Row.Records.extends_ {row row' : Row} {student : String} {attempt : Attempt}
    (h : row.Records student attempt) (hextends : row.Extends row') : row'.Records student attempt := by
  obtain ⟨hat, -, hresult⟩ := hextends.completion h.completed
  exact ⟨by rw [hextends.source, h.student], by rw [hat]; exact h.completed, by rw [hextends.source]; exact h.exercise,
    by rw [hresult, h.correct], h.answer⟩

/-- The assignments are sound, and so are the attempts that they have left. -/
structure Inv (t : Table Key Item) : Prop where
  assignment : ∀ id (row : Row), t.row (.assignment id) = some row → row.Sound
  attempt : ∀ id student (attempt : Attempt), t.row (.attempt student (attemptId id)) = some attempt →
    ∃ row : Row, t.row (.assignment id) = some row ∧ row.Records student attempt

/-- Assignments go on as they may, and attempts stay. -/
structure Keeps (t t' : Table Key Item) : Prop where
  assignment : ∀ id (row : Row), t.row (.assignment id) = some row →
    ∃ row' : Row, t'.row (.assignment id) = some row' ∧ row.Extends row'
  attempt : ∀ student id (attempt : Attempt), t.row (.attempt student (attemptId id)) = some attempt →
    t'.row (.attempt student (attemptId id)) = some attempt

theorem Keeps.refl (t : Table Key Item) : Keeps t t := ⟨fun _ row h => ⟨row, h, .refl row⟩, fun _ _ _ h => h⟩

theorem Keeps.trans {t u v : Table Key Item} (htu : Keeps t u) (huv : Keeps u v) : Keeps t v where
  assignment id row h := by
    obtain ⟨row', h', hextends⟩ := htu.assignment id row h
    obtain ⟨row'', h'', hextends'⟩ := huv.assignment id row' h'
    exact ⟨row'', h'', hextends.trans hextends'⟩
  attempt student id attempt h := huv.attempt student id attempt (htu.attempt student id attempt h)

/-- What a call may commit. -/
inductive Move (c : Call) (t t' : Table Key Item) : Prop where
  | elsewhere (h : ∀ k, OfAssignments k → t'.row k = t.row k)
  | created (id : String) (row : Row) (habsent : t.row (.assignment id) = none)
      (hrow : t'.row (.assignment id) = some row)
      (hothers : ∀ k, OfAssignments k → k ≠ .assignment id → t'.row k = t.row k)
      (hstatus : row.status = .draft ∨ row.status = .recommended ∨ row.status = .assigned)
      (hat : row.completedAt = none) (heffect : row.pendingSequencingEffect = none)
  | updated (r : Transition) (hc : c = .transition r) (row row' : Row)
      (hrow : t.row (.assignment r.assignmentId) = some row) (hrow' : t'.row (.assignment r.assignmentId) = some row')
      (hothers : ∀ k, OfAssignments k → k ≠ .assignment r.assignmentId → t'.row k = t.row k)
      (h : Updated r row row')
  | recorded (r : Transition) (hc : c = .transition r) (student : String) (attempt : Attempt)
      (habsent : t.row (.attempt student (attemptId r.assignmentId)) = none)
      (hstored : t'.row (.attempt student (attemptId r.assignmentId)) = some attempt)
      (hothers : ∀ k, OfAssignments k → k ≠ .attempt student (attemptId r.assignmentId) → t'.row k = t.row k)
      (h : ∃ row : Row, t.row (.assignment r.assignmentId) = some row ∧ row.Records student attempt)

theorem ofAssignments_assignment (id : String) : OfAssignments (.assignment id) := trivial

theorem ofAssignments_attempt (student id : String) : OfAssignments (.attempt student (attemptId id)) := ⟨id, rfl⟩

theorem attemptId_inj {a b : String} (h : attemptId a = attemptId b) : a = b := by
  have hlist := congrArg String.toList h
  simp only [attemptId, String.toList_append] at hlist
  exact String.toList_inj.mp (List.append_cancel_left hlist)

section

variable {c : Call} {t t' : Table Key Item}

theorem Move.keeps (h : Move c t t') (hinv : Inv t) : Keeps t t' := by
  -- Every kind of move leaves all rows but one as they are.
  have hframe : ∀ k, (∀ j, OfAssignments j → j ≠ k → t'.row j = t.row j) →
      (∀ id (row : Row), k = .assignment id → t.row (.assignment id) = some row →
        ∃ row' : Row, t'.row (.assignment id) = some row' ∧ row.Extends row') →
      (∀ student id (attempt : Attempt), k = .attempt student (attemptId id) →
        t.row (.attempt student (attemptId id)) = some attempt →
          t'.row (.attempt student (attemptId id)) = some attempt) → Keeps t t' := by
    refine fun k hothers hassignment hattempt => ⟨fun id row hrow => ?_, fun student id attempt hrow => ?_⟩
    · by_cases hk : Key.assignment id = k
      · exact hassignment id row hk.symm hrow
      · exact ⟨row, by rw [hothers _ (ofAssignments_assignment _) hk, hrow], .refl row⟩
    · by_cases hk : Key.attempt student (attemptId id) = k
      · exact hattempt student id attempt hk.symm hrow
      · rw [hothers _ (ofAssignments_attempt _ _) hk, hrow]
  cases h with
  | elsewhere h =>
      exact ⟨fun id row hrow => ⟨row, by rw [h _ (ofAssignments_assignment _), hrow], .refl row⟩,
        fun student id attempt hrow => by rw [h _ (ofAssignments_attempt _ _), hrow]⟩
  | created id row habsent hrow hothers hstatus hat heffect =>
      refine hframe _ hothers (fun id' row' hk hrow' => ?_) fun _ _ _ hk => by cases hk
      cases hk
      cases habsent.symm.trans hrow'
  | updated r hc row row' hrow hrow' hothers h =>
      refine hframe _ hothers (fun id' old hk hold => ?_) fun _ _ _ hk => by cases hk
      cases hk
      cases hrow.symm.trans hold
      exact ⟨row', hrow', h.extends_ (hinv.assignment _ _ hrow)⟩
  | recorded r hc student attempt habsent hstored hothers h =>
      refine hframe _ hothers (fun _ _ hk => by cases hk) fun student' id' old hk hold => ?_
      obtain ⟨rfl, hid⟩ := Key.attempt.inj hk
      rw [← hid] at hold
      cases habsent.symm.trans hold

theorem Move.inv (h : Move c t t') (hinv : Inv t) : Inv t' := by
  have hkeeps := h.keeps hinv
  -- An attempt that was there is still that of its assignment.
  have hold : ∀ id student (attempt : Attempt), t.row (.attempt student (attemptId id)) = some attempt →
      ∃ row : Row, t'.row (.assignment id) = some row ∧ row.Records student attempt := fun id student attempt hrow => by
    obtain ⟨row, hrow', hrecords⟩ := hinv.attempt id student attempt hrow
    obtain ⟨row', hrow'', hextends⟩ := hkeeps.assignment id row hrow'
    exact ⟨row', hrow'', hrecords.extends_ hextends⟩
  cases h with
  | elsewhere h =>
      exact ⟨fun id row hrow => hinv.assignment id row (by rw [← h _ (ofAssignments_assignment _), hrow]),
        fun id student attempt hrow => hold id student attempt (by rw [← h _ (ofAssignments_attempt _ _), hrow])⟩
  | created id row habsent hrow hothers hstatus hat heffect =>
      refine ⟨fun id' row' hrow' => ?_, fun id' student attempt hrow' =>
        hold id' student attempt (by rw [← hothers _ (ofAssignments_attempt _ _) (by simp), hrow'])⟩
      by_cases hk : Key.assignment id' = .assignment id
      · cases hk
        cases hrow.symm.trans hrow'
        refine ⟨fun hs => ?_, fun hs => by simp [hat] at hs, fun _ hs => by simp [heffect] at hs⟩
        rcases hstatus with h | h | h <;> simp [h] at hs
      · exact hinv.assignment id' row' (by rw [← hothers _ (ofAssignments_assignment _) hk, hrow'])
  | updated r hc row row' hrow hrow' hothers h =>
      refine ⟨fun id' new hnew => ?_, fun id' student attempt hrow' =>
        hold id' student attempt (by rw [← hothers _ (ofAssignments_attempt _ _) (by simp), hrow'])⟩
      by_cases hk : Key.assignment id' = .assignment r.assignmentId
      · cases hk
        cases hrow'.symm.trans hnew
        exact h.sound (hinv.assignment _ _ hrow)
      · exact hinv.assignment id' new (by rw [← hothers _ (ofAssignments_assignment _) hk, hnew])
  | recorded r hc student attempt habsent hstored hothers h =>
      refine ⟨fun id' row' hrow' => hinv.assignment id' row' (by rw [← hothers _ (ofAssignments_assignment _) (by simp), hrow']),
        fun id' student' attempt' hrow' => ?_⟩
      by_cases hk : Key.attempt student' (attemptId id') = .attempt student (attemptId r.assignmentId)
      · obtain ⟨rfl, hid⟩ := Key.attempt.inj hk
        cases attemptId_inj hid
        cases hstored.symm.trans hrow'
        obtain ⟨row, hrow, hrecords⟩ := h
        exact ⟨row, by rw [hothers _ (ofAssignments_assignment _) (by simp), hrow], hrecords⟩
      · exact hold id' student' attempt' (by rw [← hothers _ (ofAssignments_attempt _ _) hk, hrow'])

end

/-- The contract of the calls, under any way of failing. -/
def contract (faults : Faults) : Contract (service faults) where
  Inv := Inv
  Rely := Keeps
  refl := .refl
  trans := Keeps.trans
  Move := Move
  move_inv := fun hinv h => h.inv hinv
  move_rely := fun hinv h => h.keeps hinv
  drift_inv := fun hinv h => h ▸ hinv
  drift_rely := fun _ h => h ▸ .refl _

/-! ## The calls -/

theorem apply_fenced (t : Table Key Item) (owner : String) (generation : ℤ) (ops : List (Write Key Item)) :
    t.apply (fenceCheck owner generation :: ops) = t.apply ops := by
  simp [Table.apply, fenceCheck, Write.check, Table.set_row_self]

section

variable {faults : Faults} {c : Call} {t : Table Key Item} {own : List (Table Key Item × Table Key Item)}
  {id : String} {r : Transition}

/-- The row of the assignment at some time before. -/
abbrev Seen (faults : Faults) (id : String) (row : Row) (t : Table Key Item) : Prop :=
  (contract faults).toInterference.Seen (.assignment id) (some row) t

theorem Seen.found {row : Row} (hinv : Inv t) (hrow : t.row (.assignment id) = some row) : Seen faults id row t :=
  ⟨t, hinv, hrow, .refl t⟩

theorem Seen.keeps {row : Row} {u : Table Key Item} (h : Seen faults id row t) (hk : Keeps t u) : Seen faults id row u :=
  h.rely hk

theorem Seen.sound {row : Row} (h : Seen faults id row t) : row.Sound := by
  obtain ⟨u, hinv, hrow, -⟩ := h
  exact Inv.assignment hinv id row hrow

theorem Seen.now {row : Row} (h : Seen faults id row t) :
    ∃ row' : Row, t.row (.assignment id) = some row' ∧ row.Extends row' := by
  obtain ⟨u, -, hrow, hk⟩ := h
  exact Keeps.assignment hk id row hrow

/-- What an update of the assignment does. -/
theorem update_admits {owner : String} {generation : ℤ} {expected : Status} {updates : Row → Row}
    (h : t.Admits [fenceCheck owner generation, updateWrite id owner generation expected updates]) :
    ∃ row : Row, t.row (.assignment id) = some row ∧ row.status = expected ∧
      (t.apply [fenceCheck owner generation, updateWrite id owner generation expected updates]).row (.assignment id) =
        some (updates row) ∧
      ∀ k, k ≠ .assignment id →
        (t.apply [fenceCheck owner generation, updateWrite id owner generation expected updates]).row k = t.row k := by
  rw [apply_fenced]
  have hone : t.Admits [updateWrite id owner generation expected updates] :=
    ⟨by simp, fun w hw => h.2 w (List.mem_cons_of_mem _ hw)⟩
  obtain ⟨row, hrow, hcondition, hafter, hothers⟩ := Table.admits_modify hone
  exact ⟨row, hrow, (of_decide_eq_true hcondition).2.2, hafter, hothers⟩

/-- The fence is only read. -/
theorem requireFence_readOnly (owner : String) : (requireFence owner).run.ReadOnly := by
  refine Handler.readOnly_bind Handler.readOnly_get fun fence => ?_
  cases requireActiveAccountFence fence none <;> trivial

section

attribute [local irreducible] strip

theorem generation_readOnly (item : Row) : (generation item).run.ReadOnly := by
  unfold generation
  extract_lets named owner rest
  by_cases howner : owner = ""
  · rw [if_pos howner]
    trivial
  · rw [if_neg howner]
    dsimp only [rest]
    split
    · trivial
    · exact Handler.readOnly_bind (requireFence_readOnly _) fun _ => trivial

end

end

attribute [local irreducible] generation

section

variable {faults : Faults} {t : Table Key Item} {own : List (Table Key Item × Table Key Item)} {r : Transition}

/-- A call of a transition is safe, and what it answers is in `Q`. -/
abbrev SafeFor (faults : Faults) (r : Transition) {α : Type} (y : Action α) (Q : α → Table Key Item → Prop)
    (own : List (Table Key Item × Table Key Item)) (t : Table Key Item) : Prop :=
  y.run.Safe faults (contract faults).toInterference (Move (.transition r))
    (fun result _ u => ∀ a, result = .ok a → Q a u) own t

variable {α β : Type} {Q : α → Table Key Item → Prop} {R : β → Table Key Item → Prop}

theorem safeFor_bind {y : Action β} {f : β → Action α} (hy : SafeFor faults r y R own t)
    (hf : ∀ b own u, R b u → SafeFor faults r (f b) Q own u) : SafeFor faults r (y >>= f) Q own t := by
  refine Handler.safe_bind.mpr (hy.mono (fun _ _ _ h => h) fun result own u hresult => ?_)
  cases result with
  | ok b => exact hf b own u (hresult b rfl)
  | error e => exact fun _ heq => by cases heq

theorem safeFor_read {y : Action β} {f : β → Action α} (hy : y.run.ReadOnly)
    (hf : ∀ b u, Keeps t u → SafeFor faults r (f b) Q own u) : SafeFor faults r (y >>= f) Q own t :=
  Handler.safe_readOnly_bind hy hf fun _ _ _ _ heq => by cases heq

theorem safeFor_getAssignment {id : String} {f : Option Row → Action α}
    (hf : ∀ u, Keeps t u → Inv u → SafeFor faults r (f (u.row (.assignment id))) Q own u) :
    SafeFor faults r (getAssignment id >>= f) Q own t :=
  Handler.safe_get_bind fun u hr hi => ⟨hf u hr hi, fun _ heq => by cases heq⟩

theorem safeFor_submit {ops : List (Write Key Item)} {f : Bool → Action α}
    (hmove : ∀ u, Keeps t u → Inv u → u.Admits ops → Move (.transition r) u (u.apply ops))
    (hf : ∀ done own u, Keeps t u → SafeFor faults r (f done) Q own u) :
    SafeFor faults r (Handler.submit ops >>= f) Q own t := by
  refine Handler.safe_submit_bind (fun u hr _ => hf false own u hr) fun u hr hi hadmits => ?_
  have h := hmove u hr hi hadmits
  have hafter : Keeps t (u.apply ops) := hr.trans (h.keeps hi)
  exact ⟨h, hf true _ _ hafter, hf false _ _ hafter⟩

/-- An update of the assignment answers with a row that was stored. -/
theorem safeFor_updateAssignment {updates : Row → Row} {expected : Status} {token : Option String}
    {state : Option EffectState}
    (hupdates : ∀ u row, Keeps t u → Inv u → u.row (.assignment r.assignmentId) = some row → row.status = expected →
      Updated r row (updates row)) :
    SafeFor faults r (updateAssignment r.assignmentId updates expected token state)
      (fun answer u => ∀ row, answer = some row → Seen faults r.assignmentId row u) own t := by
  have hreads : ∀ own u, SafeFor faults r (getAssignment r.assignmentId)
      (fun answer u => ∀ row, answer = some row → Seen faults r.assignmentId row u) own u := fun own u v hr hi => by
    refine ⟨fun answer heq row hrow => ?_, fun _ _ heq => by cases heq⟩
    cases heq
    exact Seen.found hi hrow
  refine safeFor_getAssignment fun u hu hinv => ?_
  cases hfound : (u.row (.assignment r.assignmentId) : Option Row) with
  | none => exact fun _ heq _ hrow => by cases heq; cases hrow
  | some existing =>
      refine safeFor_read (generation_readOnly existing) fun fence v hv => ?_
      refine safeFor_submit (fun w hw hiw hadmits => ?_) fun done own w hw => ?_
      · obtain ⟨row, hrow, hstatus, hafter, hothers⟩ := update_admits hadmits
        exact .updated r rfl row _ hrow hafter (fun k _ hk => hothers k hk)
          (hupdates w row ((hu.trans hv).trans hw) hiw hrow hstatus)
      · cases done with
        | false => exact hreads own w
        | true =>
            refine safeFor_getAssignment fun x hx hix => ?_
            obtain ⟨row, hrow, -⟩ := ((hv.trans hw).trans hx).assignment _ _ hfound
            rw [hrow]
            rintro _ ⟨⟩ _ ⟨⟩
            exact Seen.found hix hrow

theorem safeFor_return {a : α} (h : Q a t) : SafeFor faults r (pure a) Q own t := by
  rintro _ ⟨⟩
  exact h

theorem safeFor_throw {e : Raised} : SafeFor faults r (throw e) Q own t := fun _ heq => by cases heq

/-- A claim of the effect, by a call that has seen it. -/
theorem safeFor_claim {item : Row} {effect : PendingEffect} {claimToken : String}
    (hitem : Seen faults r.assignmentId item t) (heffect : item.pendingSequencingEffect = some effect)
    (htoken : claimToken = r.found.claimToken ∨ claimToken = r.own.claimToken) :
    SafeFor faults r (claimPendingAssignmentEffect r.assignmentId item effect claimToken)
      (fun answer u => ∀ claimed current, answer = some (claimed, current) →
        Seen faults r.assignmentId claimed u ∧ claimed.pendingSequencingEffect = some current) own t := by
  unfold claimPendingAssignmentEffect
  by_cases hnone : effect.transitionToken = ""
  · rw [if_pos hnone]
    exact safeFor_return fun _ _ heq => by cases heq
  rw [if_neg hnone]
  refine safeFor_bind (safeFor_updateAssignment fun u row hu _ hrow _ => ?_) fun answer own u hanswer => ?_
  · obtain ⟨_, hrow', hextends⟩ := (hitem.keeps hu).now
    cases hrow.symm.trans hrow'
    obtain ⟨hcompleted, hevent, hcorrect⟩ := hitem.sound.effect effect heffect
    obtain ⟨hat, -, hresult⟩ := hextends.completion hcompleted
    exact .claim { effect with state := .processing, claimToken := some claimToken } rfl
      (htoken.imp (congrArg some) (congrArg some)) (hat ▸ hcompleted) hevent (hresult ▸ hcorrect)
  · cases answer with
    | none => exact safeFor_return fun _ _ heq => by cases heq
    | some claimed =>
        cases hcurrent : claimed.pendingSequencingEffect with
        | none =>
            simp only [hcurrent]
            exact safeFor_return fun _ _ heq => by cases heq
        | some current =>
            simp only [hcurrent]
            split
            · exact safeFor_return fun _ _ heq => by cases heq
            · refine safeFor_return fun claimed' current' heq => ?_
              cases heq
              exact ⟨hanswer claimed rfl, hcurrent⟩

theorem normalizeSubmittedAnswer_eq {value answer : String} (h : normalizeSubmittedAnswer value = .ok answer) :
    answer = value := by
  unfold normalizeSubmittedAnswer at h
  split at h
  · cases h
  · exact (Except.ok.inj h).symm

theorem move_elsewhere {c : Call} {u : Table Key Item} {ops : List (Write Key Item)}
    (h : ∀ w ∈ ops, ¬ OfAssignments w.key) : Move c u (u.apply ops) :=
  .elsewhere fun _ hk => Table.row_apply_of_notMem _ _ _ fun w hw heq => h w hw (heq ▸ hk)

theorem safeFor_putAttempt {student : String} {attempt : ℤ → Attempt}
    (hrecords : ∀ u generation, Keeps t u → ∃ row : Row, u.row (.assignment r.assignmentId) = some row ∧
      row.Records student (attempt generation)) :
    SafeFor faults r (putAttempt student (attemptId r.assignmentId) attempt) (fun _ u => Keeps t u) own t := by
  refine safeFor_read (requireFence_readOnly student) fun generation u hu => ?_
  refine safeFor_submit (fun v hv _ hadmits => ?_) fun done own v hv => ?_
  · rw [apply_fenced]
    have hnew : (v.row (.attempt student (attemptId r.assignmentId))).isNone = true :=
      hadmits.2 _ (List.mem_cons_of_mem _ (List.mem_singleton_self _))
    exact .recorded r rfl student (attempt generation) (Option.isNone_iff_eq_none.mp hnew) (v.row_set_self _ _)
      (fun k _ hk => v.row_set_of_ne _ hk) (hrecords v generation (hu.trans hv))
  · cases done with
    | true => exact safeFor_return (hu.trans hv)
    | false => exact safeFor_throw

theorem unansweredChallengeIds_readOnly (studentId lessonId : String) :
    (unansweredChallengeIds studentId lessonId).run.ReadOnly := by
  have hanswered : (challengesAnsweredRight studentId lessonId).run.ReadOnly :=
    Handler.readOnly_bind Handler.readOnly_list fun _ => trivial
  have hchallenges : (getChallenges lessonId).run.ReadOnly :=
    Handler.readOnly_bind Handler.readOnly_list fun _ => trivial
  exact Handler.readOnly_bind hanswered fun _ => Handler.readOnly_bind hchallenges fun _ => trivial

theorem safeFor_markLessonCompleted {studentId lessonId : String} {lesson : Lesson} {now : Instant} :
    SafeFor faults r (markLessonCompleted studentId lessonId lesson now) (fun _ _ => True) own t := by
  refine safeFor_read (requireFence_readOnly studentId) fun generation u _ => ?_
  refine safeFor_read Handler.readOnly_get fun existing v _ => ?_
  refine safeFor_submit (fun w _ _ _ => move_elsewhere fun op hop => ?_) fun done own w _ => ?_
  · rcases List.mem_cons.mp hop with rfl | hop
    · exact id
    · cases existing <;> cases List.mem_singleton.mp hop <;> exact id
  · cases done with
    | true => exact safeFor_return trivial
    | false => exact safeFor_throw

/-- The effect of a completion that was found records its verdict, with no answer. -/
theorem safeFor_record {item : Row} {effect : PendingEffect} {readings : Readings}
    (hitem : Seen faults r.assignmentId item t) (heffect : item.pendingSequencingEffect = some effect) :
    SafeFor faults r (recordAssignmentProgress r.assignmentId item effect.correct none readings)
      (fun _ _ => True) own t := by
  obtain ⟨hcompleted, -, hcorrect⟩ := hitem.sound.effect effect heffect
  unfold recordAssignmentProgress
  cases hverdict : effect.correct with
  | none => exact safeFor_return trivial
  | some correct =>
      rw [hverdict] at hcorrect
      extract_lets exerciseId
      dsimp only
      by_cases hexercise : exerciseId = ""
      · rw [if_pos hexercise]
        exact safeFor_return trivial
      rw [if_neg hexercise]
      refine Handler.safe_of_bind (fun answer hanswer => ?_) fun _ _ _ heq => by cases heq
      have hempty : answer = "" := normalizeSubmittedAnswer_eq hanswer
      subst hempty
      refine safeFor_bind (safeFor_putAttempt fun u generation hu => ?_) fun _ own u hu => ?_
      · obtain ⟨row, hrow, hextends⟩ := (hitem.keeps hu).now
        have hrecords : item.Records item.source.studentId (attemptOf item exerciseId "" correct readings.attemptedAt generation) :=
          ⟨rfl, hcompleted, hexercise, hcorrect.symm, rfl⟩
        exact ⟨row, hrow, hrecords.extends_ hextends⟩
      · split
        · exact safeFor_return trivial
        refine safeFor_read Handler.readOnly_get fun found v _ => ?_
        cases found with
        | none => exact safeFor_return trivial
        | some lesson =>
            refine safeFor_read (unansweredChallengeIds_readOnly _ _) fun unanswered w _ => ?_
            split
            · exact safeFor_return trivial
            · exact safeFor_markLessonCompleted

theorem safeFor_clear {expected : Status} {token : Option String} {appliedAt : Instant} :
    SafeFor faults r (updateAssignment r.assignmentId
      (fun row => { row with pendingSequencingEffect := none, sequencingEffectAppliedAt := some appliedAt })
      expected token (some .processing))
      (fun answer u => ∀ row, answer = some row → Seen faults r.assignmentId row u) own t :=
  safeFor_updateAssignment fun _ _ _ _ _ _ => .clear appliedAt

theorem safeFor_apply {item : Row} {readings : Readings} (hitem : Seen faults r.assignmentId item t)
    (hreadings : readings.claimToken = r.found.claimToken ∨ readings.claimToken = r.own.claimToken) :
    SafeFor faults r (applyPendingAssignmentEffect r.assignmentId item readings) (fun _ _ => True) own t := by
  unfold applyPendingAssignmentEffect
  cases heffect : item.pendingSequencingEffect with
  | none => exact safeFor_return trivial
  | some effect =>
      refine safeFor_bind (safeFor_claim hitem heffect hreadings) fun answer own u hanswer => ?_
      cases answer with
      | none => exact safeFor_return trivial
      | some claim =>
          obtain ⟨claimed, current⟩ := claim
          obtain ⟨hclaimed, hcurrent⟩ := hanswer claimed current rfl
          have hclear : ∀ own v, SafeFor faults r (do
              let _ ← updateAssignment r.assignmentId (fun row =>
                { row with pendingSequencingEffect := none, sequencingEffectAppliedAt := some readings.appliedAt })
                claimed.status (some current.transitionToken) (some .processing)) (fun _ _ => True) own v :=
            fun own v => safeFor_bind safeFor_clear fun _ _ _ _ => safeFor_return trivial
          dsimp only
          split
          · exact safeFor_bind (safeFor_record hclaimed hcurrent) fun _ own v _ => hclear own v
          · exact hclear own u

theorem safeFor_existingAssignment :
    SafeFor faults r (existingAssignment r.assignmentId) (fun item u => Seen faults r.assignmentId item u) own t := by
  refine safeFor_getAssignment fun u _ hinv => ?_
  cases hfound : (u.row (.assignment r.assignmentId) : Option Row) with
  | none => exact safeFor_throw
  | some item => exact safeFor_return (Seen.found hinv hfound)

/-- What a transition does after it has found the row that it changes. -/
theorem safeFor_turn {item : Row} (hitem : Seen faults r.assignmentId item t) :
    SafeFor faults r (do
      let change ← Handler.of (r.change item)
      match ← updateAssignment r.assignmentId change.updates item.status with
      | none => throw .assignmentNotFound
      | some updated =>
        if updated.transitionToken = some r.transitionToken ∧ change.sideEffect = some .completed then
          applyPendingAssignmentEffect r.assignmentId updated r.own
        return updated) (fun _ _ => True) own t := by
  refine Handler.safe_of_bind (fun change hchange => ?_) fun _ _ _ heq => by cases heq
  refine safeFor_bind (safeFor_updateAssignment fun u row hu _ hrow hstatus => ?_) fun answer own u hanswer => ?_
  · obtain ⟨_, hrow', hextends⟩ := (hitem.keeps hu).now
    cases hrow.symm.trans hrow'
    exact .turn item _ (Transition.turn hchange hstatus) hitem.sound hextends hstatus
  · cases answer with
    | none => exact safeFor_throw
    | some updated =>
        dsimp only
        split
        · exact safeFor_bind (safeFor_apply (hanswer updated rfl) (.inr rfl)) fun _ _ _ _ => safeFor_return trivial
        · exact safeFor_return trivial

theorem safeFor_transitionAssignment : SafeFor faults r (transitionAssignment r) (fun _ _ => True) own t := by
  refine safeFor_bind safeFor_existingAssignment fun item own u hitem => ?_
  split
  · exact safeFor_bind (safeFor_apply hitem (.inl rfl)) fun _ _ _ _ =>
      safeFor_bind safeFor_existingAssignment fun _ _ _ hfound => safeFor_turn hfound
  · exact safeFor_turn hitem

end

section

variable {faults : Faults} {t : Table Key Item}

theorem safe_createAssignment {r : Creation} {own : List (Table Key Item × Table Key Item)} :
    (createAssignment r).run.Safe faults (contract faults).toInterference (Move (.create r)) (fun _ _ _ => True) own t := by
  unfold createAssignment
  by_cases hstatus : r.status ≠ .draft ∧ r.status ≠ .recommended ∧ r.status ≠ .assigned
  · rw [if_pos hstatus]
    trivial
  rw [if_neg hstatus]
  refine Handler.safe_readOnly_bind (generation_readOnly _) (fun fence u _ => ?_) fun _ _ _ => trivial
  refine Handler.safe_submit_bind (fun _ _ _ => trivial) fun v _ _ hadmits => ⟨?_, trivial, trivial⟩
  rw [apply_fenced]
  have hnew : (v.row (.assignment r.assignmentId)).isNone = true :=
    hadmits.2 _ (List.mem_cons_of_mem _ (List.mem_singleton_self _))
  refine .created r.assignmentId _ (Option.isNone_iff_eq_none.mp hnew) (v.row_set_self _ _)
    (fun _ _ hk => v.row_set_of_ne _ hk) ?_ rfl rfl
  change r.status = .draft ∨ r.status = .recommended ∨ r.status = .assigned
  tauto

theorem safe_body (c : Call) (t : Table Key Item) :
    ((service faults).body c).Safe faults (contract faults).toInterference (Move c) (fun _ _ _ => True) [] t := by
  have hdone : ∀ {α : Type} {y : Action α} {f : α → Option Row} {Q : Post Key Item (Except Raised α)},
      y.run.Safe faults (contract faults).toInterference (Move c) Q [] t →
        (f <$> y).run.Safe faults (contract faults).toInterference (Move c) (fun _ _ _ => True) [] t :=
    fun {α y f Q} h => by
      rw [map_eq_pure_bind]
      refine Handler.safe_bind.mpr (h.mono (fun _ _ _ hmove => hmove) fun result _ _ _ => ?_)
      cases result <;> trivial
  cases c with
  | transition r => exact hdone safeFor_transitionAssignment
  | create r => exact hdone safe_createAssignment
  | elsewhere other =>
      refine Program.safe_transact (fun _ _ _ => trivial) fun u _ _ _ => ⟨move_elsewhere other.avoids, trivial, trivial⟩

end

end Stoa.Assignment
