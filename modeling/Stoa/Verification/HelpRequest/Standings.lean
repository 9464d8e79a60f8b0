import Stoa.Model.HelpRequest

/-! # How a request stands

A record has many fields, but a request stands in one of few ways. `standing`
reads off which, `Shows` says that the fields agree with it, and every update of
a record is one of the moves between them. -/

namespace Stoa.HelpRequest

open RowStore TeacherDispatch

/-- The lifecycle of a request. -/
inductive Standing where
  | waiting
  | offered (teacher : String) (deadline : Instant)
  | held (teacher : String)
  /-- Nobody is named once the account of the teacher is deleted. -/
  | resolved (teacher : Option String)
  | ended (outcome : Outcome)
  deriving DecidableEq, Repr

namespace Standing

/-- The steps of the lifecycle, where the teachers in `deleting` are leaving. -/
inductive Moves (deleting : String → Prop) : Standing → Standing → Prop where
  | stay (x : Standing) : Moves deleting x x
  | offer (teacher : String) (d : Instant) : Moves deleting waiting (offered teacher d)
  /-- A lapsed offer is followed by one to somebody else. -/
  | reoffer (teacher teacher' : String) (d now : Instant) (lapsed : d ≤ now) (other : teacher' ≠ teacher) :
      Moves deleting (offered teacher d) (offered teacher' (deadline now))
  | lapse (teacher : String) (d now : Instant) (lapsed : d ≤ now) :
      Moves deleting (offered teacher d) waiting
  | take (teacher : String) (d now : Instant) (live : now < d) :
      Moves deleting (offered teacher d) (held teacher)
  | settle (teacher : String) (d now : Instant) (live : now < d) :
      Moves deleting (offered teacher d) (resolved (some teacher))
  | resolve (teacher : String) : Moves deleting (held teacher) (resolved (some teacher))
  | giveUp (outcome : Outcome) : Moves deleting waiting (ended outcome)
  | giveUpOffered (teacher : String) (d : Instant) (outcome : Outcome) :
      Moves deleting (offered teacher d) (ended outcome)
  | unassign (teacher : String) (d : Instant) (leaves : deleting teacher) :
      Moves deleting (offered teacher d) waiting
  | release (teacher : String) (leaves : deleting teacher) : Moves deleting (held teacher) waiting
  | leave (teacher : String) (leaves : deleting teacher) :
      Moves deleting (resolved (some teacher)) (resolved none)

/-- The teacher the request is with. -/
def holder : Standing → Option String
  | held teacher => some teacher
  | resolved teacher => teacher
  | waiting | offered _ _ | ended _ => none

/-- The request is neither taken nor over. -/
def isFree : Standing → Bool
  | waiting | offered _ _ => true
  | held _ | resolved _ | ended _ => false

/-- The teacher who may answer it now. -/
def answerer (now : Instant) : Standing → Option String
  | offered teacher d => if now < d then some teacher else none
  | held teacher => some teacher
  | resolved teacher => teacher
  | waiting | ended _ => none

namespace Moves

variable {deleting deleting' : String → Prop} {x y : Standing}

theorem imp (h : x.Moves deleting y) (hd : ∀ teacher, deleting teacher → deleting' teacher) :
    x.Moves deleting' y := by
  cases h with
  | stay => exact .stay _
  | offer teacher d => exact .offer _ _
  | reoffer teacher teacher' d now lapsed other => exact .reoffer _ _ _ _ lapsed other
  | lapse teacher d now lapsed => exact .lapse _ _ _ lapsed
  | take teacher d now live => exact .take _ _ _ live
  | settle teacher d now live => exact .settle _ _ _ live
  | resolve teacher => exact .resolve _
  | giveUp outcome => exact .giveUp _
  | giveUpOffered teacher d outcome => exact .giveUpOffered _ _ _
  | unassign teacher d leaves => exact .unassign _ _ (hd _ leaves)
  | release teacher leaves => exact .release _ (hd _ leaves)
  | leave teacher leaves => exact .leave _ (hd _ leaves)

theorem of_ended {outcome : Outcome} (h : (ended outcome).Moves deleting y) : y = ended outcome := by
  cases h
  rfl

theorem of_resolved {teacher : Option String} (h : (resolved teacher).Moves deleting y) :
    y = resolved teacher ∨ y = resolved none ∧ ∃ left, teacher = some left ∧ deleting left := by
  cases h with
  | stay => exact .inl rfl
  | leave left leaves => exact .inr ⟨rfl, left, rfl, leaves⟩

/-- A request is taken only by the teacher it is offered to, before the deadline. -/
theorem taken (h : x.Moves deleting y) {teacher : String} (hx : x.holder ≠ some teacher)
    (hy : y.holder = some teacher) : ∃ d now, x = offered teacher d ∧ now < d := by
  cases h with
  | stay => exact absurd hy hx
  | take teacher' d now live =>
      cases hy
      exact ⟨d, now, rfl, live⟩
  | settle teacher' d now live =>
      cases hy
      exact ⟨d, now, rfl, live⟩
  | resolve teacher' => exact absurd hy hx
  | offer | reoffer | lapse | giveUp | giveUpOffered | unassign | release | leave => cases hy

/-- A request that is taken stays with its teacher until they leave. -/
theorem holder_kept (h : x.Moves deleting y) {teacher : String} (hx : x.holder = some teacher) :
    y.holder = some teacher ∨ deleting teacher := by
  cases h with
  | stay => exact .inl hx
  | resolve teacher' => exact .inl hx
  | release teacher' leaves =>
      cases hx
      exact .inr leaves
  | leave teacher' leaves =>
      cases hx
      exact .inr leaves
  | offer | reoffer | lapse | take | settle | giveUp | giveUpOffered | unassign => cases hx

/-- A request is free again only where its teacher leaves. -/
theorem freed (h : x.Moves deleting y) (hx : x.isFree = false) (hy : y.isFree = true) :
    ∃ teacher, x = held teacher ∧ deleting teacher := by
  cases h with
  | stay => exact absurd (hx.symm.trans hy) Bool.false_ne_true
  | release teacher leaves => exact ⟨teacher, rfl, leaves⟩
  | offer | reoffer | lapse | giveUp | giveUpOffered | unassign => cases hx
  | take | settle | resolve | leave => cases hy

end Moves

end Standing

/-! ## Reading it off a record -/

namespace RequestRow

def standing (row : RequestRow) : Standing :=
  match row.status with
  | .pending =>
    match row.dispatchStatus, row.dispatchDeadlineAt with
    | some .dispatched, some deadline => .offered row.offeredTo deadline
    | _, _ => .waiting
  | .inProgress => .held row.holder
  | .resolved => .resolved row.teacherId
  | .withdrawn => .ended .withdrawn
  | .expired => .ended .expired

/-- The fields of a record that stands like this. -/
inductive Shows (row : RequestRow) : Standing → Prop where
  | waiting (status : row.status = .pending) (holder : row.teacherId = none)
      (offered : row.dispatchedTeacherId = none)
      (dispatch : row.dispatchStatus ∈ [none, some .noCandidate, some .unassigned]) : Shows row .waiting
  | offered (teacher dispatchId : String) (deadline : Instant) (status : row.status = .pending)
      (holder : row.teacherId = none) (offered : row.dispatchedTeacherId = some teacher)
      (dispatch : row.dispatchStatus = some .dispatched) (identity : row.dispatchId = some dispatchId)
      (drawn : dispatchId ≠ "") (limit : row.dispatchDeadlineAt = some deadline) (named : teacher ≠ "")
      (another : teacher ∉ row.previousDispatchTeacherIds) : Shows row (.offered teacher deadline)
  | held (teacher : String) (status : row.status = .inProgress) (holder : row.teacherId = some teacher)
      (offered : row.dispatchedTeacherId = some teacher) (dispatch : row.dispatchStatus = some .accepted)
      (named : teacher ≠ "") : Shows row (.held teacher)
  | resolved (teacher : String) (status : row.status = .resolved) (holder : row.teacherId = some teacher)
      (offered : row.dispatchedTeacherId = some teacher) (dispatch : row.dispatchStatus = some .accepted)
      (named : teacher ≠ "") : Shows row (.resolved (some teacher))
  | left (status : row.status = .resolved) (holder : row.teacherId = none)
      (offered : row.dispatchedTeacherId = none) (dispatch : row.dispatchStatus = some .revoked) :
      Shows row (.resolved none)
  | ended (outcome : Outcome) (status : row.status = outcome.status) (holder : row.teacherId = none)
      (offered : row.dispatchedTeacherId = none)
      (dispatch : row.dispatchStatus = some outcome.dispatchStatus) : Shows row (.ended outcome)

theorem Shows.standing {row : RequestRow} {x : Standing} (h : row.Shows x) : row.standing = x := by
  cases h with
  | waiting status holder offered dispatch =>
      unfold RequestRow.standing
      rw [status]
      simp only [List.mem_cons, List.not_mem_nil, or_false] at dispatch
      rcases dispatch with hd | hd | hd <;> simp [hd]
  | offered teacher dispatchId deadline status holder offered dispatch identity drawn limit =>
      simp [RequestRow.standing, status, dispatch, limit, offeredTo, offered]
  | held teacher status holder => simp [RequestRow.standing, status, RequestRow.holder, holder]
  | resolved teacher status holder => simp [RequestRow.standing, status, holder]
  | left status holder => simp [RequestRow.standing, status, holder]
  | ended outcome status => cases outcome <;> simp [RequestRow.standing, status, Outcome.status]

end RequestRow

end Stoa.HelpRequest
