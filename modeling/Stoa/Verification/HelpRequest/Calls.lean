import Stoa.Verification.HelpRequest.Writes

/-! # The calls

Every commit of every call is one of the changes, whatever the other calls and
the rest of the program commit in between. -/

namespace Stoa.HelpRequest

open RowStore TeacherDispatch

variable {env : Env} {call : Call} {F : Faults} {t : Table Key Row}

/-! ## Reading -/

/-- The record is the one of the conversation, and was read. -/
def Found (env : Env) (c : String) (record : RequestRow) (t : Table Key Row) : Prop :=
  record.conversationId = c ∧ Read env record t

theorem Found.rely {c : String} {record : RequestRow} {u : Table Key Row} (h : Found env c record t)
    (hr : Kept t u) : Found env c record u :=
  ⟨h.1, Interference.Seen.rely h.2 hr⟩

theorem Found.of_row {c : String} {record : RequestRow} (hi : WellFormed env t)
    (hrow : t.row (.request c) = some (.record record)) : Found env c record t := by
  have hc := (hi.request c record hrow).conversationId
  refine ⟨hc, t, hi, ?_, (requests env).refl t⟩
  rw [hc]
  exact hrow

theorem get_quiet_bind {α : Type} {c : String} {f : Except Raised (Option RequestRow) → Program Key Row α}
    (hfound : ∀ record u, Found env c record u → (f (.ok (some record))).Quiet F (requests env) (Change env call) u)
    (hother : ∀ e u, Kept t u → (∀ record, e ≠ .ok (some record)) →
      (f e).Quiet F (requests env) (Change env call) u) :
    ((get c).run.bind f).Quiet F (requests env) (Change env call) t := by
  unfold get
  split
  · exact hother _ t ((requests env).refl t) fun _ he => by cases he
  · refine Program.quiet_read (fun u hr hi => ?_) fun u hr => hother _ u hr fun _ he => by cases he
    change (f (.ok ((u.row (.request c)).bind Item.record?))).Quiet F (requests env) (Change env call) u
    cases hrow : (u.row (.request c)).bind Item.record? with
    | none => exact hother _ u hr fun _ he => by cases he
    | some record =>
        obtain ⟨item, hitem, hrecord⟩ := Option.bind_eq_some_iff.mp hrow
        cases item with
        | tombstone => cases hrecord
        | record row =>
            cases hrecord
            exact hfound _ u (.of_row hi hitem)

theorem get_lawful_bind {α : Type} {c : String} {f : Option RequestRow → Handler α}
    (hfound : ∀ record u, Found env c record u → Lawful env call F (f (some record)) u)
    (hnone : ∀ u, Kept t u → Lawful env call F (f none) u) : Lawful env call F (get c >>= f) t := by
  refine get_quiet_bind hfound fun e u hr he => ?_
  rcases e with e | _ | record
  · exact Program.quiet_ret
  · exact hnone u hr
  · exact absurd rfl (he record)

theorem withRecord_lawful {α : Type} {c : String} {f : RequestRow → Handler α}
    (h : ∀ record u, Found env c record u → Lawful env call F (f record) u) :
    Lawful env call F (withRecord c f) t :=
  get_lawful_bind h fun _ _ => Program.quiet_ret

theorem requireFence_readOnly (user : String) : (requireFence user).run.ReadOnly := by
  refine RowStore.Handler.readOnly_bind RowStore.Handler.readOnly_get fun fence => ?_
  split <;> trivial

theorem attempt_readOnly {α : Type} {x : Handler α} {handle : Raised → Handler α} (hx : x.run.ReadOnly)
    (hhandle : ∀ e, (handle e).run.ReadOnly) : (attempt x handle).run.ReadOnly :=
  Program.ReadOnly.bind hx fun r => by
    cases r with
    | ok a => trivial
    | error e => exact hhandle e

/-! ## The teacher's moves -/

theorem teacherStandingConditions_bind {α : Type} {teacherId : String}
    {f : List (Write Key Row) → Handler α}
    (h : ∀ role generation version u, Kept t u → env.dispatch.lower role ∈ ELIGIBLE_ROLES →
      Lawful env call F (f (teacherAssignmentConditions teacherId role generation version)) u) :
    Lawful env call F (teacherStandingConditions env teacherId >>= f) t := by
  unfold teacherStandingConditions
  rw [bind_assoc]
  refine RowStore.Handler.quiet_get_bind fun u hu _ => ?_
  rw [bind_assoc]
  refine RowStore.Handler.quiet_get_bind fun v hv _ => ?_
  split
  · exact Program.quiet_ret
  · exact Program.quiet_ret
  · split
    · exact Program.quiet_ret
    split
    · exact Program.quiet_ret
    rename_i hrole
    exact h _ _ _ v ((requests env).trans hu hv) (not_not.mp hrole)

/-- What a reply writes besides the record. -/
structure ReplyRows (c : String) (reply : Option NoteRow) (rows : Option (List (Write Key Row))) : Prop where
  isSome : rows.isSome = reply.isSome
  touches : ∀ w ∈ rows.getD [], Touches c reply w
  note : ∀ note ∈ reply, noteWrite note ∈ rows.getD []

theorem advance_lawful {record : RequestRow} {a : Advance} (reply : Option NoteRow)
    {rows : Option (List (Write Key Row))} (hrecord : Read env record t)
    (hrows : ReplyRows record.conversationId reply rows) (hmade : call.Advances record a reply)
    (hheld : record.holder = "" ∨ reply = none) : Lawful env call F (advance env record a rows) t := by
  have htouches : ∀ role generation version, ∀ w ∈ teacherAssignmentConditions a.teacherId role generation version ++
      rows.getD [], Touches record.conversationId reply w := by
    intro role generation version w hw
    rcases List.mem_append.mp hw with hw | hw
    · exact teacherAssignmentConditions_checks w hw
    · exact hrows.touches w hw
  have hnote : ∀ role generation version, ∀ note ∈ reply,
      noteWrite note ∈ teacherAssignmentConditions a.teacherId role generation version ++ rows.getD [] :=
    fun _ _ _ note hmem => List.mem_append_right _ (hrows.note note hmem)
  have hended : a.target.status.isEnded = false := by cases a.target <;> rfl
  unfold advance
  split
  · exact Program.quiet_ret
  split
  · split
    · exact Program.quiet_ret
    split
    · exact Program.quiet_ret
    split
    · exact Program.quiet_ret
    refine teacherStandingConditions_bind fun role generation version u hu hrole => ?_
    refine write_lawful reply (htouches role generation version) (hnote role generation version) ?_
    intro v stored hv hi hstored hversion hoffer hconditions
    cases hrecord.unchanged ((requests env).trans hu hv) hstored hversion
    refine ⟨?_, ?_⟩
    · rw [hrows.isSome]
      exact .taken a _ reply hmade hoffer (canTeach_of_conditions (.inr ⟨role, rfl, hrole⟩) fun w hw =>
        hconditions w (List.mem_append_left _ hw))
    · obtain ⟨-, hstatus, -⟩ := of_decide_eq_true hoffer
      rw [hstatus]
      exact hended
  · rename_i hholder
    obtain rfl := hheld.resolve_left hholder
    cases hmade
    refine teacherStandingConditions_bind fun role generation version u hu hrole => ?_
    refine write_lawful none (htouches role generation version) (hnote role generation version) ?_
    intro v stored hv hi hstored hversion hstill hconditions
    cases hrecord.unchanged ((requests env).trans hu hv) hstored hversion
    refine ⟨?_, ?_⟩
    · rw [hrows.isSome]
      exact .moved a rfl hstill (canTeach_of_conditions (.inr ⟨role, rfl, hrole⟩) fun w hw =>
        hconditions w (List.mem_append_left _ hw))
    · obtain ⟨-, hopen⟩ := of_decide_eq_true hstill
      have hlasting : record.status.isEnded = false := by
        cases hstatus : record.status <;> simp_all [Status.isOpen, Status.isEnded]
      rw [hlasting]
      exact hended

theorem ReplyRequest.rows_are (r : ReplyRequest) (record : RequestRow) (generation : ℤ) :
    ReplyRows record.conversationId (some (r.noteRow record generation)) (some (r.rows record generation)) where
  isSome := rfl
  touches := by
    intro w hw
    rcases List.mem_append.mp hw with hw | hw
    · simp only [List.mem_cons, List.not_mem_nil, or_false] at hw
      rcases hw with rfl | rfl
      · exact .inr (.inr (.inr ⟨_, rfl, rfl⟩))
      · exact .inr (.inl trivial)
    · obtain ⟨name, hname⟩ := r.foreign w hw
      exact .inr (.inl (hname ▸ trivial))
  note := by
    rintro note ⟨⟩
    exact List.mem_append_left _ (List.mem_cons_self ..)

theorem reply_lawful {record : RequestRow} {r : ReplyRequest} (hrecord : Read env record t)
    (hmade : call = .reply record.conversationId r) : Lawful env call F (reply env record r) t := by
  unfold reply
  split
  · exact Program.quiet_ret
  rename_i hmine
  refine RowStore.Handler.quiet_readOnly_bind (attempt_readOnly (requireFence_readOnly _) fun e => ?_)
    fun generation u hu => ?_
  · cases e <;> trivial
  split
  · exact Program.quiet_ret
  split
  · rename_i hholder
    refine RowStore.Handler.quiet_bind (write_lawful _ (r.rows_are record generation).touches
      (r.rows_are record generation).note ?_) fun _ _ _ => Program.quiet_ret
    intro v stored hv hi hstored hversion hheld _
    cases hrecord.unchanged ((requests env).trans hu hv) hstored hversion
    exact ⟨.replied r generation hmade (of_decide_eq_true hheld), rfl⟩
  · rename_i hholder
    refine RowStore.Handler.quiet_bind (advance_lawful (some (r.noteRow record generation))
      (Interference.Seen.rely hrecord hu) (r.rows_are record generation) ?_ ?_) fun _ _ _ => Program.quiet_ret
    · rw [hmade]
      exact .reply r generation
    · left
      by_contra hne
      refine hmine ⟨hholder, ?_⟩
      simp [RequestRow.holderOrOffered, hne, hholder]

theorem scrubTeacher_lawful {record : RequestRow} {r : ScrubRequest} (hrecord : Read env record t)
    (hmade : call = .scrub record.conversationId r) : Lawful env call F (scrubTeacher record r) t := by
  refine attempt_lawful (RowStore.Handler.quiet_bind (write_lawful none ?_ (by simp) ?_)
    fun _ _ _ => Program.quiet_ret) fun e u _ => ?_
  · intro w hw
    rw [List.mem_singleton.mp hw]
    exact .inl rfl
  · intro v stored hv hi hstored hversion _ hconditions
    cases hrecord.unchanged hv hstored hversion
    obtain ⟨fence, hfence, hpending⟩ := (Option.any_eq_true _ _).mp (hconditions r.fence (List.mem_singleton_self _))
    refine ⟨.scrubbed r hmade ⟨fence, hfence, (of_decide_eq_true hpending).1⟩, ?_⟩
    unfold ScrubRequest.scrubbed
    dsimp only
    split
    · dsimp only
      split
      · rename_i hopen
        cases hstatus : record.status <;> simp_all [Status.isOpen, Status.isEnded]
      · rfl
    · rfl
  · cases e <;> exact Program.quiet_ret

/-! ## The allowance -/

theorem cases_inv (t : Table Key Row) (h : (requests env).Inv t) :
    (TeacherSupport.contract env.support F).Inv (support.table t) := h.cases

theorem cases_rely (t u : Table Key Row) (h : (requests env).Rely t u) :
    (TeacherSupport.contract env.support F).Rely (support.table t) (support.table u) := h.cases

/-- What a program of the allowance commits with the rows of a request is lawful
where every such transaction is one of the changes. -/
theorem within_lawful {α : Type} {p : Program TeacherSupport.Key TeacherSupport.Row α}
    {around : List (Write Key Row)} {P : List (Write TeacherSupport.Key TeacherSupport.Row) → Prop}
    (houtside : ∀ w ∈ around, w.action = id ∨ support.covers w.key = none) (hsubmits : p.Submits P)
    (hsafe : p.Safe { F with writeRefused := True } (TeacherSupport.contract env.support F).toInterference
      (TeacherSupport.Change env.support) (fun _ _ _ => True) [] (support.table t))
    (hchange : ∀ u ops, Kept t u → WellFormed env u → P ops → u.Admits (around ++ ops.map support.write) →
      (support.table u).Admits ops →
      support.table (u.apply (around ++ ops.map support.write)) = (support.table u).apply ops →
      TeacherSupport.Change env.support (support.table u) ((support.table u).apply ops) →
      Change env call u (u.apply (around ++ ops.map support.write))) :
    (p.within support around).Quiet F (requests env) (Change env call) t := by
  have hwithin : (p.within support around).Safe F (requests env)
      (support.Commits around P (TeacherSupport.Change env.support)) (fun _ _ _ => True) [] t :=
    Program.Safe.within (Q := fun _ _ _ => True) cases_inv cases_rely houtside hsubmits hsafe
  refine hwithin.toQuiet (fun u u' hr hi hcommits => ?_) change_rely
  obtain ⟨ops, hops, hadmits, rfl, hmove⟩ := hcommits
  rw [Slice.table_apply_around houtside] at hmove
  exact hchange u ops hr hi hops hadmits (Slice.admits_of_around hadmits)
    (Slice.table_apply_around houtside) hmove

/-- The rows that are written with a case are not the allowance's. -/
theorem support_writes {c : String} {reply : Option NoteRow} {around : List (Write Key Row)}
    (ops : List (Write TeacherSupport.Key TeacherSupport.Row)) (h : ∀ w ∈ around, Touches c reply w) :
    ∀ w ∈ around ++ ops.map support.write, Touches c reply w ∨ ∃ k, w.key = .support k := by
  intro w hw
  rcases List.mem_append.mp hw with hw | hw
  · exact .inl (h w hw)
  · obtain ⟨v, -, rfl⟩ := List.mem_map.mp hw
    exact .inr ⟨v.key, rfl⟩

/-! ## Asking -/

theorem AskRequest.case_checked {r : AskRequest} {v : TeacherSupport.AdmitCase} (h : r.case.checked = .ok v) :
    v.kind = .conversation ∧ v.caseId.val = r.conversationId ∧ v.beneficiary.val = r.studentId := by
  unfold TeacherSupport.AdmitRequest.checked at h
  obtain ⟨caseId, hcase, h⟩ := bind_eq_ok.mp h
  split at h
  · cases h
  obtain ⟨beneficiary, hbeneficiary, h⟩ := bind_eq_ok.mp h
  obtain ⟨kind, hkind, h⟩ := bind_eq_ok.mp h
  cases h
  refine ⟨?_, requiredText_eq_ok.mp hcase, requiredText_eq_ok.mp hbeneficiary⟩
  cases hkind
  rfl

theorem AskRequest.rows_touch (r : AskRequest) (generation : ℤ) :
    ∀ w ∈ r.rows generation, Touches r.conversationId none w := by
  intro w hw
  simp only [AskRequest.rows, List.mem_cons, List.not_mem_nil, or_false] at hw
  rcases hw with rfl | rfl | rfl | rfl
  · exact .inl rfl
  · exact .inr (.inr (.inl rfl))
  · exact .inr (.inl trivial)
  · exact .inl rfl

theorem admitCase_lawful (r : AskRequest) (generation : ℤ) (hmade : call = .ask r) :
    Lawful env call F (admitCase env r generation) t := by
  refine Program.Quiet.bind ?_ fun _ _ _ => Program.quiet_ret
  unfold TeacherSupport.admitTeacherSupportCase
  split
  · exact Program.quiet_ret
  rename_i v hv
  obtain ⟨hkind, hcase, hbeneficiary⟩ := r.case_checked hv
  refine within_lawful ?_ v.run_submits (v.run_safe _ _) ?_
  · intro w hw
    simp only [AskRequest.rows, List.mem_cons, List.not_mem_nil, or_false] at hw
    rcases hw with rfl | rfl | rfl | rfl
    · exact .inl rfl
    · exact .inr rfl
    · exact .inr rfl
    · exact .inl rfl
  · intro u ops hu hi hops ha hadmits htable hmove
    have htouches := support_writes ops (r.rows_touch generation)
    obtain ⟨receipt, hspends, hreceipt⟩ := hops.spends hadmits hmove
    have hmem : Write.putNew (.request r.conversationId) (.record (r.record generation)) ∈
        r.rows generation ++ ops.map support.write := by simp [AskRequest.rows]
    have howner : ∃ row, u.row (.conversation r.conversationId) = some row ∧ row.studentId = r.studentId := by
      obtain ⟨row, hrow, howner⟩ := (Option.any_eq_true _ _).mp
        (ha.2 (.check (.conversation r.conversationId) (Option.any fun row => row.studentId = r.studentId))
          (by simp [AskRequest.rows]))
      exact ⟨row, hrow, of_decide_eq_true howner⟩
    refine .asked r generation receipt hmade howner (Option.isNone_iff_eq_none.mp (ha.2 _ hmem))
      (Table.row_apply_of_mem u ha.1 hmem) (others_left htouches) (replies_apply ha htouches (by simp)) ?_ ?_
      (hreceipt.1.trans hkind) ?_ ?_
    · exact htable ▸ hmove
    · exact htable ▸ hspends
    · rw [hreceipt.2.1, hcase]
    · rw [hreceipt.2.2, hbeneficiary]

theorem ask_lawful (r : AskRequest) : Lawful env (.ask r) F (ask env r) t := by
  unfold ask
  dsimp only
  split
  · exact Program.quiet_ret
  refine get_lawful_bind (fun _ _ _ => Program.quiet_ret) fun u _ => ?_
  refine RowStore.Handler.quiet_readOnly_bind (requireFence_readOnly _) fun generation v _ => ?_
  split
  · exact Program.quiet_ret
  refine RowStore.Handler.quiet_bind (admitCase_lawful r generation rfl) fun admission w _ => ?_
  split
  · refine get_lawful_bind ?_ ?_
    · exact fun _ _ _ => Program.quiet_ret
    · exact fun _ _ => Program.quiet_ret
  · refine RowStore.Handler.quiet_bind (attempt_lawful (dispatch_lawful (r.record_fresh generation).known (.ask r))
      fun _ _ _ => Program.quiet_ret) fun _ _ _ => Program.quiet_ret
  · exact Program.quiet_ret

/-! ## Ending -/

theorem EndRequest.decide_eq_ok {r : EndRequest} {found : Option RequestRow} {record : RequestRow}
    (h : r.decide found = .ok (.inr record)) : found = some record := by
  unfold EndRequest.decide at h
  cases found with
  | none => cases h
  | some found =>
      dsimp only at h
      split at h
      · cases h
      split at h
      · cases h
      split at h
      · cases h
      split at h
      · cases h
      split at h
      · cases h
      · cases h
        rfl

theorem EndRequest.refund_checked {r : EndRequest} {record : RequestRow} {v : TeacherSupport.RefundCase}
    (h : (r.refund record).checked = .ok v) :
    v.kind = .conversation ∧ v.caseId.val = r.conversationId ∧ v.beneficiary.val = record.studentId := by
  unfold TeacherSupport.RefundRequest.checked at h
  obtain ⟨caseId, hcase, h⟩ := bind_eq_ok.mp h
  split at h
  · cases h
  obtain ⟨beneficiary, hbeneficiary, h⟩ := bind_eq_ok.mp h
  split at h
  · cases h
  obtain ⟨kind, hkind, h⟩ := bind_eq_ok.mp h
  cases h
  refine ⟨?_, requiredText_eq_ok.mp hcase, requiredText_eq_ok.mp hbeneficiary⟩
  cases hkind
  rfl

theorem EndRequest.rows_touch (r : EndRequest) (record : RequestRow) :
    ∀ w ∈ r.rows record, Touches record.conversationId none w := by
  intro w hw
  simp only [EndRequest.rows, List.mem_cons, List.not_mem_nil, or_false] at hw
  rcases hw with rfl | rfl
  · exact .inl rfl
  · exact .inr (.inr (.inl rfl))

theorem refund_lawful {r : EndRequest} {record : RequestRow} (hmade : call.Ends r.conversationId r)
    (hrecord : Found env r.conversationId record t) (hdue : r.decide (some record) = .ok (.inr record)) :
    Program.Quiet F (requests env) (Change env call)
      ((TeacherSupport.refundTeacherSupportCase env.support (r.refund record)).within support (r.rows record)) t := by
  obtain ⟨hc, hread⟩ := hrecord
  unfold TeacherSupport.refundTeacherSupportCase
  split
  · exact Program.quiet_ret
  rename_i v hv
  obtain ⟨hkind, hcase, hbeneficiary⟩ := r.refund_checked hv
  refine within_lawful ?_ v.run_submits (v.run_safe _ _) ?_
  · intro w hw
    simp only [EndRequest.rows, List.mem_cons, List.not_mem_nil, or_false] at hw
    rcases hw with rfl | rfl
    · exact .inl rfl
    · exact .inr rfl
  · intro u ops hu hi hops ha hadmits htable hmove
    have htouches := support_writes ops (r.rows_touch record)
    obtain ⟨stored, hstored, hversion, hfree, hafter⟩ := updateOperation_met ha
      (show updateOperation record r.ended RequestRow.isFree ∈ _ by simp [EndRequest.rows])
    cases hread.unchanged hu hstored hversion
    exact .ended record.conversationId record r v hstored (hc ▸ hmade) hdue hfree hafter (others_left htouches)
      (replies_apply ha htouches (by simp)) (htable ▸ hmove) (htable ▸ hops.ends hadmits hmove) hkind
      (hcase.trans hc.symm) hbeneficiary

theorem attempt_end_lawful {r : EndRequest} (hmade : call.Ends r.conversationId r) :
    Program.Quiet F (requests env) (Change env call) (r.attempt env) t := by
  unfold EndRequest.attempt
  refine get_quiet_bind (fun record u hfound => ?_) fun e u hu he => ?_
  · dsimp only
    split
    · exact Program.quiet_ret
    · exact Program.quiet_ret
    rename_i found hdue
    cases EndRequest.decide_eq_ok hdue
    split
    · exact Program.quiet_ret
    refine (refund_lawful hmade hfound hdue).bind fun answer v _ => ?_
    cases answer with
    | error failure => exact Program.quiet_ret
    | ok result =>
        dsimp only
        split
        · exact Program.quiet_ret
        · exact Program.quiet_ret
        · exact get_quiet_bind (fun _ _ _ => Program.quiet_ret) fun _ _ _ _ => Program.quiet_ret
  · rcases e with e | _ | record
    · exact Program.quiet_ret
    · exact Program.quiet_ret
    · exact absurd rfl (he record)

theorem end_lawful {r : EndRequest} (hmade : call.Ends r.conversationId r) : Lawful env call F («end» env r) t :=
  Program.Quiet.retry (fun _ _ => attempt_end_lawful hmade) 4 t ((requests env).refl t)

theorem expire_lawful (drawn : String → Drawn) (c : String) (now : Instant) :
    Lawful env (.sweep drawn now) F (expire env c (cutoff now) now) t := by
  refine attempt_lawful (RowStore.Handler.quiet_bind (end_lawful (.sweep drawn now)) fun ending _ _ => ?_) fun e u _ => ?_
  · split <;> exact Program.quiet_ret
  · cases e <;> exact Program.quiet_ret

/-! ## The sweep -/

theorem sweepRecord_lawful {drawn : String → Drawn} {now : Instant} {report : SweepReport}
    {record : RequestRow} (hrecord : Read env record t) :
    Lawful env (.sweep drawn now) F (sweepRecord env drawn now report record) t := by
  unfold sweepRecord
  extract_lets rest
  have hrest : ∀ ended u, Kept t u → Lawful env (.sweep drawn now) F (rest ended) u := by
    intro ended u hu
    dsimp only [rest]
    split
    · exact Program.quiet_ret
    split
    · exact Program.quiet_ret
    · exact RowStore.Handler.quiet_bind (dispatch_lawful (Read.known (Interference.Seen.rely hrecord hu))
        (.sweep drawn now _))
        fun _ _ _ => Program.quiet_ret
  split
  · exact RowStore.Handler.quiet_bind (attempt_lawful (expire_lawful drawn _ now) fun _ _ _ => Program.quiet_ret) hrest
  · exact hrest none t ((requests env).refl t)

theorem sweepRecords_lawful {drawn : String → Drawn} {now : Instant} {records : List RequestRow}
    {report : SweepReport} (hrecords : ∀ record ∈ records, Read env record t) :
    Lawful env (.sweep drawn now) F (sweepRecords env drawn now records report) t := by
  induction records generalizing report t with
  | nil => exact Program.quiet_ret
  | cons record records ih =>
      refine RowStore.Handler.quiet_bind (sweepRecord_lawful (hrecords record (List.mem_cons_self ..)))
        fun report u hu => ?_
      exact ih fun other hother => Interference.Seen.rely (hrecords other (List.mem_cons_of_mem _ hother)) hu

theorem sweep_lawful (drawn : String → Drawn) (now : Instant) : Lawful env (.sweep drawn now) F (sweep env drawn now) t := by
  refine attempt_lawful ?_ fun _ _ _ => Program.quiet_ret
  unfold listOpen
  rw [bind_assoc]
  refine RowStore.Handler.quiet_list_bind fun u rows _ hi hrows => ?_
  refine sweepRecords_lawful fun record hrecord => ?_
  obtain ⟨⟨k, row⟩, hmem, hsome⟩ := List.mem_filterMap.mp (List.mem_filter.mp hrecord).1
  have hrow := (hrows.mem_iff.mp hmem).2
  cases k with
  | request c =>
      cases row with
      | tombstone => cases hsome
      | record row =>
          cases hsome
          exact (Found.of_row hi hrow).2
  | conversation | note | message | teacherProfile | support | other => cases hsome

/-! ## The service -/

theorem assign_lawful (r : TeacherSupport.AssignRequest) :
    Program.Quiet F (requests env) (Change env call) ((TeacherSupport.setAssignedWeeklyCases r).within support []) t := by
  unfold TeacherSupport.setAssignedWeeklyCases
  split
  · exact Program.quiet_ret
  rename_i v hv
  refine within_lawful (P := fun ops => ∃ previous,
    ops = [.put (.assigned v.student) (v.item previous) (TeacherSupport.AssignCases.condition previous)])
    (by simp) ?_ (v.run_safe _ _) ?_
  · rintro (_ | previous)
    · trivial
    · exact ⟨⟨previous, rfl⟩, fun done => by cases done <;> trivial⟩
  · rintro u ops hu hi ⟨previous, rfl⟩ ha hadmits htable hmove
    have hnone : ∀ w ∈ ([] : List (Write Key Row)), Touches "" none w := by simp
    have htouches := support_writes
      [.put (.assigned v.student) (v.item previous) (TeacherSupport.AssignCases.condition previous)] hnone
    refine .other (fun c => ?_) (replies_apply ha htouches (by simp)) (htable ▸ hmove) fun x => ?_
    · exact Table.row_apply_of_notMem _ _ _ (by simp [Slice.write, support, Write.put])
    · exact Table.row_apply_of_notMem _ _ _ (by simp [Slice.write, support, Write.put])

theorem Call.lawful (c : Call) : Lawful env c F (c.handler env) t := by
  cases c with
  | ask r => exact RowStore.Handler.quiet_bind (ask_lawful r) fun _ _ _ => Program.quiet_ret
  | withdraw c studentId now =>
      refine RowStore.Handler.quiet_bind ?_ fun _ _ _ => Program.quiet_ret
      exact RowStore.Handler.quiet_bind (end_lawful (.withdraw studentId now)) fun _ _ _ => Program.quiet_ret
  | sweep drawn now => exact RowStore.Handler.quiet_bind (sweep_lawful drawn now) fun _ _ _ => Program.quiet_ret
  | takeOrFinish c a =>
      refine RowStore.Handler.quiet_bind (withRecord_lawful fun record u hfound => ?_) fun _ _ _ => Program.quiet_ret
      exact advance_lawful none hfound.2 ⟨rfl, by simp, by simp⟩ (hfound.1 ▸ .takeOrFinish a) (.inr rfl)
  | reply c r =>
      refine RowStore.Handler.quiet_bind (withRecord_lawful fun record u hfound => ?_) fun _ _ _ => Program.quiet_ret
      exact reply_lawful hfound.2 (by rw [hfound.1])
  | scrub c r =>
      refine RowStore.Handler.quiet_bind (withRecord_lawful fun record u hfound => ?_) fun _ _ _ => Program.quiet_ret
      split
      · exact scrubTeacher_lawful hfound.2 (by rw [hfound.1])
      · exact Program.quiet_ret
  | assign r =>
      refine RowStore.Handler.quiet_bind (Program.Quiet.bind (assign_lawful r) ?_) ?_
      · exact fun _ _ _ => Program.quiet_ret
      · exact fun _ _ _ => Program.quiet_ret

def contract (env : Env) (faults : Faults) : Contract (service env faults) where
  toInterference := requests env
  Move := Change env
  move_inv := fun hi hc => hc.wellFormed hi
  move_rely := fun _ hc => hc.kept
  drift_inv := fun hi hd => hd.wellFormed hi
  drift_rely := fun _ hd => hd.kept

/-- A table without requests and receipts. -/
structure Unused (t : Table Key Row) : Prop where
  cases : TeacherSupport.Fresh (support.table t)
  request : ∀ c, t.row (.request c) = none

theorem Unused.wellFormed (h : Unused t) : WellFormed env t where
  cases := h.cases.cases
  request := fun c _ hrow => by simp [h.request c] at hrow

theorem body_safe (faults : Faults) (c : Call) (t : Table Key Row) (_ : WellFormed env t) :
    ((service env faults).body c).Safe faults (contract env faults).toInterference (Change env c)
      (fun _ _ _ => True) [] t :=
  (c.lawful []).mono (fun _ _ _ h => h) fun _ _ _ _ => trivial

theorem sound {faults : Faults} {s : State Key Row Call (Except Raised Result)} (ht : Unused t)
    (h : Reachable (service env faults) t s) : Sound (contract env faults) (fun _ _ _ _ _ => True) s :=
  Reachable.sound h ht.wellFormed (body_safe faults)

end Stoa.HelpRequest
