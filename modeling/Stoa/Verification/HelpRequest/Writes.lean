import Stoa.Verification.HelpRequest.Commits
import Stoa.Verification.TeacherDispatch

/-! # The writes of a record

A write is conditional on the version it was read at, so that it updates the
record it was computed from, and it changes no other row of the service. -/

namespace Stoa.HelpRequest

open RowStore TeacherDispatch

/-! ## Transactions for one request -/

def Key.IsSide : Key → Prop
  | .message _ _ | .other _ => True
  | .request _ | .conversation _ | .note _ _ | .teacherProfile _ | .support _ => False

def noteWrite (note : NoteRow) : Write Key Row :=
  .putNew (.note note.conversationId note.noteId) note

/-- A write that changes the request or the reply, or no row that matters. -/
def Touches (c : String) (reply : Option NoteRow) (w : Write Key Row) : Prop :=
  w.action = id ∨ w.key.IsSide ∨ w.key = .request c ∨ ∃ note ∈ reply, w = noteWrite note

section

variable {t : Table Key Row} {ops : List (Write Key Row)} {c : String} {reply : Option NoteRow}

theorem others_left (h : ∀ w ∈ ops, Touches c reply w ∨ ∃ k, w.key = .support k) :
    OthersLeft c t (t.apply ops) := by
  have hframe : (t.apply ops).AgreesOn (fun k => ∃ d, d ≠ c ∧ k = .request d) t := by
    refine .apply_frame t fun w hw => ?_
    rcases h w hw with (hid | hside | hkey | ⟨note, -, rfl⟩) | ⟨k, hk⟩
    · exact .inl hid
    · right
      rintro ⟨d, -, hd⟩
      rw [hd] at hside
      exact hside
    · right
      rintro ⟨d, hne, hd⟩
      exact hne (Key.request.inj (hd.symm.trans hkey))
    · right
      rintro ⟨d, -, hd⟩
      cases hd
    · right
      rintro ⟨d, -, hd⟩
      cases hd.symm.trans hk
  exact fun d hd => hframe (.request d) ⟨d, hd, rfl⟩

theorem replies_apply (ha : t.Admits ops) (h : ∀ w ∈ ops, Touches c reply w ∨ ∃ k, w.key = .support k)
    (hreply : ∀ note ∈ reply, noteWrite note ∈ ops) : Replies t (t.apply ops) reply := by
  refine ⟨fun note hnote => Option.isNone_iff_eq_none.mp (ha.2 _ (hreply note hnote)), fun d n => ?_⟩
  split
  · rename_i hany
    obtain ⟨note, rfl, hboth⟩ := (Option.any_eq_true _ _).mp hany
    obtain ⟨rfl, rfl⟩ := of_decide_eq_true hboth
    exact Table.row_apply_of_mem t ha.1 (hreply note rfl)
  · rename_i hnot
    rcases Table.AgreesOn.row_apply_or_write t ops (.note d n) with hsame | ⟨w, hw, hkey, hid⟩
    · exact hsame
    · rcases h w hw with (hid' | hside | hrequest | ⟨note, hnote, rfl⟩) | ⟨k, hk⟩
      · exact absurd hid' hid
      · rw [hkey] at hside
        exact hside.elim
      · cases hkey.symm.trans hrequest
      · cases hnote
        cases hkey
        simp at hnot
      · cases hkey.symm.trans hk

theorem cases_left (h : ∀ w ∈ ops, Touches c reply w) : CasesLeft t (t.apply ops) := by
  have hframe : (t.apply ops).AgreesOn (fun k => ∃ j : TeacherSupport.Key, k = .support j) t := by
    refine .apply_frame t fun w hw => ?_
    rcases h w hw with hid | hside | hkey | ⟨note, -, rfl⟩
    · exact .inl hid
    · right
      rintro ⟨j, hj⟩
      rw [hj] at hside
      exact hside
    · right
      rintro ⟨j, hj⟩
      cases hj.symm.trans hkey
    · right
      rintro ⟨j, hj⟩
      cases hj
  exact fun k _ => hframe (.support k) ⟨k, rfl⟩

end

/-- An update that meets its conditions replaces the record of that version. -/
theorem updateOperation_met {t : Table Key Row} {ops : List (Write Key Row)} {record : RequestRow}
    {change : RequestRow → RequestRow} {condition : RequestRow → Bool} (ha : t.Admits ops)
    (hmem : updateOperation record change condition ∈ ops) :
    ∃ stored, t.row (.request record.conversationId) = some (.record stored) ∧
      stored.version = record.version ∧ condition stored = true ∧
        (t.apply ops).row (.request record.conversationId) =
          some (.record { change stored with version := stored.version + 1 }) := by
  obtain ⟨item, hitem, hcondition⟩ := (Option.any_eq_true _ _).mp (ha.2 _ hmem)
  cases item with
  | tombstone => cases hcondition
  | record stored =>
      obtain ⟨hversion, hcondition⟩ := of_decide_eq_true hcondition
      refine ⟨stored, hitem, hversion, hcondition, ?_⟩
      rw [hversion]
      have hafter := Table.row_apply_of_mem t ha.1 hmem
      rw [show t.row (updateOperation record change condition).key = some (.record stored) from hitem] at hafter
      exact hafter

/-! ## Records that are at hand -/

/-- The record was read, and may have changed since. -/
abbrev Read (env : Env) (record : RequestRow) (t : Table Key Row) : Prop :=
  (requests env).Seen (.request record.conversationId) (some (.record record)) t

/-- What an offer depends on. -/
structure RequestRow.Alike (record stored : RequestRow) : Prop where
  previous : ∀ now, record.previous now = stored.previous now
  liveOffer : ∀ now, record.liveOffer now = stored.liveOffer now
  dispatchAttemptCount : record.dispatchAttemptCount = stored.dispatchAttemptCount
  noCandidateSince : record.noCandidateSince = stored.noCandidateSince

/-- Of the same version as what is stored it is alike. -/
def Known (env : Env) (record : RequestRow) (t : Table Key Row) : Prop :=
  ∀ u stored, Kept t u → WellFormed env u →
    u.row (.request record.conversationId) = some (.record stored) → stored.version = record.version →
      record.Alike stored

section

variable {env : Env} {record stored : RequestRow} {t u : Table Key Row}

theorem Read.unchanged (h : Read env record t) (hr : Kept t u)
    (hstored : u.row (.request record.conversationId) = some (.record stored))
    (hversion : stored.version = record.version) : stored = record := by
  obtain ⟨v, -, hread, hv⟩ := h
  exact ((requests env).trans hv hr : Kept v u).stored hread hstored hversion

theorem Read.known (h : Read env record t) : Known env record t := by
  intro u stored hr hi hstored hversion
  cases h.unchanged hr hstored hversion
  exact ⟨fun _ => rfl, fun _ => rfl, rfl, rfl⟩

theorem RequestRow.Fresh.alike (h : record.Fresh) (h' : stored.Fresh) : record.Alike stored where
  previous := fun now => by
    simp [previous, offeredTo, h.dispatchedTeacherId, h'.dispatchedTeacherId,
      h.previousDispatchTeacherIds, h'.previousDispatchTeacherIds]
  liveOffer := fun now => by simp [liveOffer, h.dispatchStatus, h'.dispatchStatus]
  dispatchAttemptCount := h.dispatchAttemptCount.trans h'.dispatchAttemptCount.symm
  noCandidateSince := h.noCandidateSince.trans h'.noCandidateSince.symm

/-- Of the first version there is only one. -/
theorem RequestRow.Fresh.known (h : record.Fresh) : Known env record t := fun _ _ _ hi hstored hversion =>
  h.alike ((hi.request _ _ hstored).fresh (hversion.trans h.version))

theorem Known.rely (h : Known env record t) (hr : Kept t u) : Known env record u :=
  fun v stored hv => h v stored ((requests env).trans hr hv)

end

/-! ## One write -/

variable {env : Env} {call : Call} {F : Faults} {t : Table Key Row}

/-- Every commit is one of the changes that the call is for. -/
abbrev Lawful (env : Env) (call : Call) (F : Faults) {α : Type} (x : Handler α) (t : Table Key Row) : Prop :=
  x.run.Quiet F (requests env) (Change env call) t

theorem change_rely (t t' : Table Key Row) (_ : (requests env).Inv t) (h : Change env call t t') :
    (requests env).Rely t t' := h.kept

theorem attempt_lawful {α : Type} {x : Handler α} {handle : Raised → Handler α} (hx : Lawful env call F x t)
    (hhandle : ∀ e u, Kept t u → Lawful env call F (handle e) u) : Lawful env call F (attempt x handle) t := by
  refine Program.Quiet.bind hx fun r u hr => ?_
  cases r with
  | ok a => exact Program.quiet_ret
  | error e => exact hhandle e u hr

theorem write_lawful {record : RequestRow} {change : RequestRow → RequestRow}
    {condition : RequestRow → Bool} {extra : List (Write Key Row)} {fence : Bool} (reply : Option NoteRow)
    (hextra : ∀ w ∈ extra, Touches record.conversationId reply w)
    (hreply : ∀ note ∈ reply, noteWrite note ∈ extra)
    (hturn : ∀ u stored, Kept t u → WellFormed env u →
      u.row (.request record.conversationId) = some (.record stored) → stored.version = record.version →
      condition stored = true → (∀ w ∈ extra, w.condition (u.row w.key) = true) →
        Turn env call u stored reply { change stored with version := stored.version + 1 } ∧
          (change stored).status.isEnded = stored.status.isEnded) :
    Lawful env call F (write record change condition extra fence) t := by
  unfold write
  split
  · exact Program.quiet_ret
  · refine RowStore.Handler.quiet_submit_bind change_rely ?_ fun done u _ => ?_
    · intro u hr hi ha
      have htouches : ∀ w ∈ studentFence record fence ++ updateOperation record change condition :: extra,
          Touches record.conversationId reply w := by
        intro w hw
        rcases List.mem_append.mp hw with hw | hw
        · left
          cases fence with
          | true =>
              rw [List.mem_singleton.mp hw]
              rfl
          | false => cases hw
        · rcases List.mem_cons.mp hw with rfl | hw
          · exact .inr (.inr (.inl rfl))
          · exact hextra w hw
      obtain ⟨stored, hstored, hversion, hcondition, hafter⟩ :=
        updateOperation_met ha (List.mem_append_right _ (List.mem_cons_self ..))
      obtain ⟨hturned, hended⟩ := hturn u stored hr hi hstored hversion hcondition fun w hw =>
        ha.2 w (List.mem_append_right _ (List.mem_cons_of_mem _ hw))
      exact .turned record.conversationId stored _ reply hstored hturned hended hafter
        (others_left fun w hw => .inl (htouches w hw))
        (replies_apply ha (fun w hw => .inl (htouches w hw)) fun note hnote =>
          List.mem_append_right _ (List.mem_cons_of_mem _ (hreply note hnote)))
        (cases_left htouches)
    · cases done <;> exact Program.quiet_ret

/-! ## Offers -/

theorem eligibleProfiles_readOnly (limit : ℕ) (rows : List ((k : Key) × Row k)) :
    (eligibleProfiles env limit rows).run.ReadOnly := by
  induction rows generalizing limit with
  | nil => cases limit <;> trivial
  | cons row rows ih =>
      obtain ⟨k, row⟩ := row
      cases limit with
      | zero => trivial
      | succ limit =>
          cases k with
          | teacherProfile userId =>
              unfold eligibleProfiles
              split
              · exact ih _
              · refine RowStore.Handler.readOnly_bind RowStore.Handler.readOnly_get fun fence => ?_
                split
                · exact ih _
                · exact RowStore.Handler.readOnly_bind (ih _) fun _ => trivial
          | request | conversation | note | message | support | other => exact ih _

/-- The conditions of an assignment hold only of a teacher who may take requests. -/
theorem canTeach_of_conditions {teacherId role : String} {generation version : ℤ}
    (hrole : role ∈ ELIGIBLE_ROLES ∨ ∃ text, role = text ∧ env.dispatch.lower text ∈ ELIGIBLE_ROLES)
    (h : ∀ w ∈ teacherAssignmentConditions teacherId role generation version,
      w.condition (t.row w.key) = true) : CanTeach env t teacherId := by
  have hprofile := h (.check (.teacherProfile teacherId) (Option.any fun profile =>
    profile.userId = teacherId ∧ profile.role = role ∧ profile.accountStatus = "active" ∧
      profile.version = version)) (by simp [teacherAssignmentConditions])
  obtain ⟨profile, hrow, hall⟩ := (Option.any_eq_true _ _).mp hprofile
  obtain ⟨hid, rfl, hactive, -⟩ := of_decide_eq_true hall
  refine ⟨⟨generation, h (activeFence teacherId generation) (by simp [teacherAssignmentConditions])⟩,
    profile, hrow, hid, hactive, hrole.imp_right ?_⟩
  rintro ⟨text, rfl, htext⟩
  exact htext

theorem teacherAssignmentConditions_checks {teacherId role : String} {generation version : ℤ} {c : String}
    {reply : Option NoteRow} :
    ∀ w ∈ teacherAssignmentConditions teacherId role generation version, Touches c reply w := by
  intro w hw
  simp only [teacherAssignmentConditions, List.mem_cons, List.not_mem_nil, or_false] at hw
  rcases hw with rfl | rfl <;> exact .inl rfl

theorem unlessConflict_lawful {x : Handler RequestRow} {record : RequestRow} (h : Lawful env call F x t) :
    Lawful env call F (unlessConflict x record) t := by
  refine attempt_lawful h fun e u _ => ?_
  cases e <;> exact Program.quiet_ret

theorem dispatch_lawful {record : RequestRow} {dispatchId : Drawn} {now : Instant}
    (hrecord : Known env record t) (hmade : call.Offers record.conversationId dispatchId now) : Lawful env call F (dispatch env record dispatchId now) t := by
  unfold dispatch
  split
  · exact Program.quiet_ret
  rename_i hopen
  simp only [not_or, not_not, Bool.not_eq_true] at hopen
  obtain ⟨-, -, hlive⟩ := hopen
  refine RowStore.Handler.quiet_readOnly_bind (RowStore.Handler.readOnly_bind RowStore.Handler.readOnly_list
    fun rows => eligibleProfiles_readOnly 200 rows) fun profiles u hu => ?_
  have hknown := hrecord.rely hu
  dsimp only
  split
  · unfold recordNoCandidate
    split
    · exact Program.quiet_ret
    · refine unlessConflict_lawful (write_lawful none (by simp) (by simp) ?_)
      intro v stored hv hi hstored hversion hfree _
      obtain ⟨hprevious, hoffer, hattempts, hsince⟩ := hknown v stored hv hi hstored hversion
      rw [hprevious]
      refine ⟨?_, rfl⟩
      have hsame : ∀ reason, noCandidate record reason (stored.previous now) now stored =
          noCandidate stored reason (stored.previous now) now stored := fun reason => by
        rw [noCandidate, noCandidate, hsince]
      rw [hsame]
      rw [← (hi.request _ _ hstored).conversationId] at hmade
      exact .unplaced _ dispatchId now hmade hfree ((hoffer now).symm.trans hlive)
  · rename_i candidate rest hselected
    obtain ⟨⟨hstanding, hanother, -⟩, -⟩ := mem_selected (hselected ▸ List.mem_cons_self ..)
    obtain ⟨hnamed, hrole, -⟩ := standing_of_refusal hstanding
    refine unlessConflict_lawful (write_lawful none
      (fun w hw => teacherAssignmentConditions_checks w hw) (by simp) ?_)
    intro v stored hv hi hstored hversion hfree hconditions
    obtain ⟨hprevious, hoffer, hattempts, hsince⟩ := hknown v stored hv hi hstored hversion
    refine ⟨?_, rfl⟩
    have hsame : offer record candidate.teacherId dispatchId.val (record.previous now) now stored =
        offer stored candidate.teacherId dispatchId.val (stored.previous now) now stored := by
      rw [offer, offer, hattempts, hprevious]
    rw [hsame]
    rw [← (hi.request _ _ hstored).conversationId] at hmade
    refine .offered _ dispatchId now hmade hfree ((hoffer now).symm.trans hlive) hnamed ?_ ?_
    · rw [← hprevious]
      exact hanother
    · exact canTeach_of_conditions (.inl hrole) hconditions

end Stoa.HelpRequest
