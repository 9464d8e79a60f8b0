import Stoa.Verification.HelpRequest.Standings

/-! # The updates of a record

Each update is computed from the record that it replaces, and is one of the moves
of the lifecycle. -/

namespace Stoa.HelpRequest

open RowStore TeacherDispatch

/-! ## Who may write -/

/-- The account is active, and its profile may take requests. -/
structure CanTeach (env : Env) (t : Table Key Row) (teacherId : String) : Prop where
  fence : ∃ generation, activeFenceCondition (some generation) (t.row (fenceKey teacherId)) = true
  profile : ∃ profile, t.row (.teacherProfile teacherId) = some profile ∧ profile.userId = teacherId ∧
    profile.accountStatus = "active" ∧
      (profile.role ∈ ELIGIBLE_ROLES ∨ env.dispatch.lower profile.role ∈ ELIGIBLE_ROLES)

/-- The deletion of the account has begun. -/
def DeletionPending (t : Table Key Row) (user : String) : Prop :=
  ∃ fence, t.row (fenceKey user) = some fence ∧ fence.status = "deletion_pending"

/-! ## What a call is for -/

/-- The call offers the request. -/
inductive Call.Offers : Call → String → Drawn → Instant → Prop where
  | ask (r : AskRequest) : Offers (.ask r) r.conversationId r.dispatchId r.now
  | sweep (drawn : String → Drawn) (now : Instant) (c : String) : Offers (.sweep drawn now) c (drawn c) now

/-- The call is a teacher's move, with the reply that is written along. -/
inductive Call.Advances (stored : RequestRow) : Call → Advance → Option NoteRow → Prop where
  | takeOrFinish (a : Advance) : Advances stored (.takeOrFinish stored.conversationId a) a none
  | reply (r : ReplyRequest) (generation : ℤ) :
      Advances stored (.reply stored.conversationId r) r.advance (some (r.noteRow stored generation))

/-- The call ends the request: the student's, or the sweep's after a day. -/
inductive Call.Ends (c : String) : Call → EndRequest → Prop where
  | withdraw (studentId : String) (now : Instant) :
      Ends c (.withdraw c studentId now) ⟨c, .withdrawn, some studentId, none, now⟩
  | sweep (drawn : String → Drawn) (now : Instant) :
      Ends c (.sweep drawn now) ⟨c, .expired, none, some (cutoff now), now⟩

/-- The call takes the teacher off the request, as the account is being deleted. -/
def Call.Releases (call : Call) (t : Table Key Row) (c teacher : String) : Prop :=
  DeletionPending t teacher ∧ ∃ r, call = .scrub c r ∧ r.teacherId = teacher

/-! ## Updates -/

/-- The updates of a stored record, with the reply that is written along. -/
inductive Turn (env : Env) (call : Call) (t : Table Key Row) (stored : RequestRow) :
    Option NoteRow → RequestRow → Prop where
  | offered (teacherId : String) (dispatchId : Drawn) (now : Instant)
      (made : call.Offers stored.conversationId dispatchId now) (free : stored.isFree = true)
      (unoffered : stored.liveOffer now = false) (named : teacherId ≠ "")
      (another : teacherId ∉ stored.previous now) (standing : CanTeach env t teacherId) :
      Turn env call t stored none
        { offer stored teacherId dispatchId.val (stored.previous now) now stored with
          version := stored.version + 1 }
  | unplaced (reason : String) (dispatchId : Drawn) (now : Instant)
      (made : call.Offers stored.conversationId dispatchId now) (free : stored.isFree = true)
      (unoffered : stored.liveOffer now = false) :
      Turn env call t stored none
        { noCandidate stored reason (stored.previous now) now stored with
          version := stored.version + 1 }
  | taken (a : Advance) (dispatchId : String) (reply : Option NoteRow) (made : call.Advances stored a reply)
      (offer : a.offerHeld dispatchId stored = true) (standing : CanTeach env t a.teacherId) :
      Turn env call t stored reply
        { a.taken stored reply.isSome stored with version := stored.version + 1 }
  | moved (a : Advance) (made : call = .takeOrFinish stored.conversationId a)
      (held : a.stillHeld stored = true) (standing : CanTeach env t a.teacherId) :
      Turn env call t stored none { a.moved stored false stored with version := stored.version + 1 }
  | replied (r : ReplyRequest) (generation : ℤ) (made : call = .reply stored.conversationId r)
      (held : stored.teacherId = some r.teacherId) :
      Turn env call t stored (some (r.noteRow stored generation))
        { r.replied stored stored with version := stored.version + 1 }
  | ended (r : EndRequest) (made : call.Ends stored.conversationId r)
      (due : r.decide (some stored) = .ok (.inr stored)) (free : stored.isFree = true) :
      Turn env call t stored none { r.ended stored with version := stored.version + 1 }
  | scrubbed (r : ScrubRequest) (made : call = .scrub stored.conversationId r)
      (deleting : DeletionPending t r.teacherId) :
      Turn env call t stored none { r.scrubbed stored stored with version := stored.version + 1 }

section

variable {env : Env} {call : Call} {t : Table Key Row} {stored next : RequestRow} {reply : Option NoteRow}

theorem Turn.version (h : Turn env call t stored reply next) : next.version = stored.version + 1 := by
  cases h <;> rfl

theorem Turn.conversationId (h : Turn env call t stored reply next) :
    next.conversationId = stored.conversationId := by
  cases h with
  | scrubbed r made deleting =>
      dsimp only [ScrubRequest.scrubbed]
      split <;> rfl
  | offered | unplaced | taken | moved | replied | ended => rfl

/-! ### Offers -/

theorem mem_distinct {text : String} {texts : List String} : text ∈ distinct texts ↔ text ∈ texts := by
  simp [distinct]

namespace RequestRow

/-- Whom a request must not be offered to: the teachers recorded, and the one
whose offer has lapsed. -/
theorem mem_previous {row : RequestRow} {now : Instant} {teacher : String} :
    teacher ∈ row.previous now ↔ teacher ≠ "" ∧ (teacher ∈ row.previousDispatchTeacherIds ∨
      (row.offeredTo = teacher ∧ row.dispatchStatus = some .dispatched ∧
        passed row.dispatchDeadlineAt now = true)) := by
  have hrecorded : teacher ∈ distinct (row.previousDispatchTeacherIds.filter (· ≠ "")) ↔
      teacher ≠ "" ∧ teacher ∈ row.previousDispatchTeacherIds := by
    rw [mem_distinct, List.mem_filter, decide_eq_true_eq, and_comm]
  unfold previous
  dsimp only
  split
  · rename_i hlapsed
    obtain ⟨hne, hstatus, hpassed, -⟩ := hlapsed
    rw [List.mem_append, List.mem_singleton, hrecorded]
    constructor
    · rintro (⟨hteacher, hmem⟩ | rfl)
      · exact ⟨hteacher, .inl hmem⟩
      · exact ⟨hne, .inr ⟨rfl, hstatus, hpassed⟩⟩
    · rintro ⟨hteacher, hmem | ⟨rfl, -⟩⟩
      · exact .inl ⟨hteacher, hmem⟩
      · exact .inr rfl
  · rename_i hlapsed
    rw [hrecorded]
    refine and_congr_right fun hteacher => ⟨.inl, ?_⟩
    rintro (hmem | ⟨rfl, hstatus, hpassed⟩)
    · exact hmem
    · by_contra hnot
      exact hlapsed ⟨hteacher, hstatus, hpassed, fun hmem => hnot (hrecorded.mp hmem).2⟩

/-- An offer that is not live has lapsed. -/
theorem Shows.lapsed {row : RequestRow} {teacher : String} {d now : Instant}
    (h : row.Shows (.offered teacher d)) (hlive : row.liveOffer now = false) :
    d ≤ now ∧ teacher ∈ row.previous now := by
  cases h with
  | offered _ dispatchId _ status holder offered dispatch identity drawn limit named another =>
      have hteacher : row.offeredTo = teacher := by simp [offeredTo, offered]
      have hlapsed : d ≤ now := by
        simpa [liveOffer, dispatch, hteacher, named, limit, passed] using hlive
      refine ⟨hlapsed, mem_previous.mpr ⟨named, .inr ⟨hteacher, dispatch, ?_⟩⟩⟩
      simpa [limit, passed] using hlapsed

/-- A request that is free waits or is offered. -/
theorem Shows.of_isFree {row : RequestRow} {x : Standing} (h : row.Shows x) (hfree : row.isFree = true) :
    x = .waiting ∨ ∃ teacher d, x = .offered teacher d := by
  obtain ⟨hstatus, hholder⟩ : row.status = .pending ∧ row.teacherId = none := by
    simpa [isFree] using hfree
  cases h with
  | waiting => exact .inl rfl
  | offered teacher dispatchId d => exact .inr ⟨teacher, d, rfl⟩
  | held teacher status => cases hstatus.symm.trans status
  | resolved teacher status => cases hstatus.symm.trans status
  | left status => cases hstatus.symm.trans status
  | ended outcome status => cases outcome <;> cases hstatus.symm.trans status

theorem Shows.of_teacherId {row : RequestRow} {x : Standing} (h : row.Shows x) {teacher : String}
    (hteacher : row.teacherId = some teacher) : x = .held teacher ∨ x = .resolved (some teacher) := by
  cases h with
  | held teacher' status holder =>
      cases hteacher.symm.trans holder
      exact .inl rfl
  | resolved teacher' status holder =>
      cases hteacher.symm.trans holder
      exact .inr rfl
  | waiting status holder => cases hteacher.symm.trans holder
  | offered _ _ _ status holder => cases hteacher.symm.trans holder
  | left status holder => cases hteacher.symm.trans holder
  | ended _ status holder => cases hteacher.symm.trans holder

end RequestRow

/-! ### Moves -/

/-- The teacher who leaves is taken off, and the others keep what they have. -/
theorem scrubbed_moves {r : ScrubRequest} {leaving : String → Prop} (deleting : leaving r.teacherId)
    {x : Standing} (hx : stored.Shows x) :
    ∃ y, RequestRow.Shows { r.scrubbed stored stored with version := stored.version + 1 } y ∧
      x.Moves leaving y := by
  by_cases hnamed : stored.teacherId = some r.teacherId ∨ stored.dispatchedTeacherId = some r.teacherId
  · simp only [ScrubRequest.scrubbed, if_pos hnamed]
    cases hx with
    | offered teacher dispatchId d status holder offered =>
        have hteacher : teacher = r.teacherId := by simpa [holder, offered] using hnamed
        subst hteacher
        exact ⟨.waiting, .waiting (by simp [status, Status.isOpen]) rfl rfl (by simp [status, Status.isOpen]),
          .unassign _ _ deleting⟩
    | held teacher status holder offered =>
        have hteacher : teacher = r.teacherId := by simpa [holder, offered] using hnamed
        subst hteacher
        exact ⟨.waiting, .waiting (by simp [status, Status.isOpen]) rfl rfl (by simp [status, Status.isOpen]),
          .release _ deleting⟩
    | resolved teacher status holder offered =>
        have hteacher : teacher = r.teacherId := by simpa [holder, offered] using hnamed
        subst hteacher
        exact ⟨.resolved none, .left (by simp [status, Status.isOpen]) rfl rfl (by simp [status, Status.isOpen]),
          .leave _ deleting⟩
    | waiting status holder offered => simp [holder, offered] at hnamed
    | left status holder offered => simp [holder, offered] at hnamed
    | ended _ status holder offered => simp [holder, offered] at hnamed
  · simp only [ScrubRequest.scrubbed, if_neg hnamed]
    refine ⟨x, ?_, .stay x⟩
    cases hx with
    | waiting status holder offered dispatch => exact .waiting status holder offered dispatch
    | offered teacher dispatchId d status holder offered dispatch identity drawn limit named another =>
        exact .offered _ _ _ status holder offered dispatch identity drawn limit named
          fun hmem => another (List.mem_of_mem_filter hmem)
    | held teacher status holder offered dispatch named => exact .held _ status holder offered dispatch named
    | resolved teacher status holder offered dispatch named =>
        exact .resolved _ status holder offered dispatch named
    | left status holder offered dispatch => exact .left status holder offered dispatch
    | ended outcome status holder offered dispatch => exact .ended _ status holder offered dispatch

theorem Turn.moves (h : Turn env call t stored reply next) {x : Standing} (hx : stored.Shows x) :
    ∃ y, next.Shows y ∧ x.Moves (call.Releases t stored.conversationId) y := by
  cases h with
  | offered teacherId dispatchId now made free unoffered named another standing =>
      obtain ⟨hstatus, hholder⟩ : stored.status = .pending ∧ stored.teacherId = none := by
        simpa [RequestRow.isFree] using free
      refine ⟨.offered teacherId (deadline now), .offered _ dispatchId.val _ hstatus hholder rfl rfl rfl
        dispatchId.property rfl named another, ?_⟩
      rcases hx.of_isFree free with rfl | ⟨teacher, d, rfl⟩
      · exact .offer _ _
      · obtain ⟨hlapsed, hprevious⟩ := hx.lapsed unoffered
        exact .reoffer _ _ _ _ hlapsed fun he => another (he ▸ hprevious)
  | unplaced reason dispatchId now made free unoffered =>
      obtain ⟨hstatus, hholder⟩ : stored.status = .pending ∧ stored.teacherId = none := by
        simpa [RequestRow.isFree] using free
      refine ⟨.waiting, .waiting hstatus hholder rfl (by simp [noCandidate]), ?_⟩
      rcases hx.of_isFree free with rfl | ⟨teacher, d, rfl⟩
      · exact .stay _
      · exact .lapse _ _ _ (hx.lapsed unoffered).1
  | taken a dispatchId reply made offer standing =>
      obtain ⟨hholder, hstatus, hdispatch, hoffered, -, hlive⟩ := of_decide_eq_true offer
      cases hx with
      | offered teacher _ d status holder offered dispatch identity drawn limit named another =>
          cases offered.symm.trans hoffered
          rw [limit] at hlive
          have hlive : a.now < d := by simpa using hlive
          cases htarget : a.target with
          | inProgress =>
              exact ⟨.held a.teacherId, .held _ (by simp [Advance.taken, Advance.moved, htarget, Target.status])
                rfl hoffered rfl named, .take _ _ _ hlive⟩
          | resolved =>
              exact ⟨.resolved (some a.teacherId),
                .resolved _ (by simp [Advance.taken, Advance.moved, htarget, Target.status]) rfl hoffered rfl named,
                .settle _ _ _ hlive⟩
      | waiting status holder offered => cases offered.symm.trans hoffered
      | held _ status => cases hstatus.symm.trans status
      | resolved _ status => cases hstatus.symm.trans status
      | left status => cases hstatus.symm.trans status
      | ended _ status holder offered => cases offered.symm.trans hoffered
  | moved a made held standing =>
      obtain ⟨hteacher, hopen⟩ := of_decide_eq_true held
      cases hx with
      | held teacher status holder offered dispatch named =>
          cases htarget : a.target with
          | inProgress =>
              exact ⟨.held teacher, .held _ (by simp [Advance.moved, htarget, Target.status]) holder offered
                dispatch named, .stay _⟩
          | resolved =>
              exact ⟨.resolved (some teacher), .resolved _ (by simp [Advance.moved, htarget, Target.status])
                holder offered dispatch named, .resolve _⟩
      | resolved teacher status => simp [status, Status.isOpen] at hopen
      | waiting status holder => cases holder.symm.trans hteacher
      | offered _ _ _ status holder => cases holder.symm.trans hteacher
      | left status holder => cases holder.symm.trans hteacher
      | ended _ status holder => cases holder.symm.trans hteacher
  | replied r generation made held =>
      cases hx with
      | held teacher status holder offered dispatch named =>
          exact ⟨.held teacher, .held _ status holder offered dispatch named, .stay _⟩
      | resolved teacher status holder offered dispatch named =>
          exact ⟨.resolved (some teacher), .resolved _ status holder offered dispatch named, .stay _⟩
      | waiting status holder => cases holder.symm.trans held
      | offered _ _ _ status holder => cases holder.symm.trans held
      | left status holder => cases holder.symm.trans held
      | ended _ status holder => cases holder.symm.trans held
  | ended r made due free =>
      have hholder : stored.teacherId = none := by
        have hboth : stored.status = .pending ∧ stored.teacherId = none := by
          simpa [RequestRow.isFree] using free
        exact hboth.2
      refine ⟨.ended r.outcome, .ended _ rfl hholder rfl rfl, ?_⟩
      rcases hx.of_isFree free with rfl | ⟨teacher, d, rfl⟩
      · exact .giveUp _
      · exact .giveUpOffered _ _ _
  | scrubbed r made deleting => exact scrubbed_moves ⟨deleting, r, made, rfl⟩ hx

end

end Stoa.HelpRequest
