import Stoa.Model.ReportResend
import Stoa.Store.Log
import Stoa.Store.Solo

/-! # One resend of a report at a time

What is noted about a report is a trace. While every claim meets a row that is not
already under way, the trace is orderly: one attempt holds the report from its claim
to its outcome. -/

namespace Stoa.ReportResend

open RowStore

/-! ## Traces -/

/-- What was noted about a report and by which call, the latest first. -/
abbrev Trace := List (ℕ × Note)

/-- Between two claims the first attempt writes its outcome, or it does nothing
after the second one. -/
def Exclusive (trace : Trace) : Prop :=
  ∀ newer j mid i older, trace = newer ++ (j, .claimed) :: (mid ++ (i, .claimed) :: older) →
    (∃ success, (i, .outcome success) ∈ mid) ∨ ∀ note, (i, note) ∉ newer

/-- No mail follows an accepted one. -/
def NotSentAgain (trace : Trace) : Prop :=
  ∀ newer j mid i older, trace = newer ++ (j, .sent) :: (mid ++ (i, .sent) :: older) → (i, .accepted) ∉ trace

/-- An outcome that is written is that of the attempt that was sent last. -/
def LastSent (trace : Trace) : Prop :=
  ∀ newer i success mid j older, trace = newer ++ (i, .outcome success) :: (mid ++ (j, .sent) :: older) →
    (∀ k, (k, .sent) ∉ mid) → i = j ∨ (j, .outcome success) ∈ mid

/-- How far the attempt is that holds a report. -/
inductive Stage where
  | claimed
  | sent
  | accepted
  deriving DecidableEq

/-- Who holds a report; where nobody does, the outcome written last. -/
inductive Desk where
  | free (last : Option Bool)
  | held (i : ℕ) (stage : Stage)

/-- An attempt claims once, sends while it holds the report, and leaves it with an
outcome that says whether its mail was accepted. -/
inductive Orderly : Trace → Desk → Prop where
  | nil : Orderly [] (.free none)
  | claimed {trace : Trace} {last : Option Bool} {i : ℕ} (h : Orderly trace (.free last)) (hlast : last ≠ some true)
      (hnew : ∀ note, (i, note) ∉ trace) : Orderly ((i, .claimed) :: trace) (.held i .claimed)
  | sent {trace : Trace} {i : ℕ} (h : Orderly trace (.held i .claimed)) :
      Orderly ((i, .sent) :: trace) (.held i .sent)
  | accepted {trace : Trace} {i : ℕ} (h : Orderly trace (.held i .sent)) :
      Orderly ((i, .accepted) :: trace) (.held i .accepted)
  | outcome {trace : Trace} {i : ℕ} {stage : Stage} {success : Bool} (h : Orderly trace (.held i stage))
      (hsent : success = true → stage ≠ .claimed) (haccepted : stage = .accepted → success = true) :
      Orderly ((i, .outcome success) :: trace) (.free (some success))

namespace Orderly

variable {trace newer older : Trace} {desk : Desk} {i j : ℕ} {stage : Stage} {success : Bool} {note : Note}

theorem suffix (h : Orderly (newer ++ trace) desk) : ∃ desk, Orderly trace desk := by
  induction newer generalizing desk with
  | nil => exact ⟨desk, h⟩
  | cons x newer ih =>
      cases h with
      | claimed h => exact ih h
      | sent h => exact ih h
      | accepted h => exact ih h
      | outcome h => exact ih h

/-- An attempt that has written its outcome does not come back. -/
theorem outcome_done (h : Orderly trace desk) (hmem : (i, .outcome success) ∈ trace) :
    desk ≠ .held i stage := by
  induction h generalizing stage with
  | nil => simp at hmem
  | claimed h hlast hnew ih => grind
  | sent h ih => grind
  | accepted h ih => grind
  | outcome h => simp

/-- After a success nobody claims. -/
theorem success_last (h : Orderly trace desk) (hmem : (i, .outcome true) ∈ trace) :
    desk = .free (some true) := by
  induction h with
  | nil => simp at hmem
  | claimed h hlast hnew ih => grind
  | sent h ih => grind
  | accepted h ih => grind
  | outcome h => grind

/-- An attempt that has claimed has written its outcome, or it holds the report. -/
theorem claimed_closed (h : Orderly trace desk) (hmem : (i, .claimed) ∈ trace) :
    (∃ success, (i, .outcome success) ∈ trace) ∨ ∃ stage, desk = .held i stage := by
  induction h with
  | nil => simp at hmem
  | claimed h hlast hnew ih =>
      rcases List.mem_cons.mp hmem with heq | hmem
      · cases heq
        exact .inr ⟨_, rfl⟩
      · grind
  | sent h ih => grind
  | accepted h ih => grind
  | outcome h => grind

/-- An attempt that has sent its mail has written its outcome, or it is past sending. -/
theorem sent_closed (h : Orderly trace desk) (hmem : (i, .sent) ∈ trace) :
    (∃ success, (i, .outcome success) ∈ trace) ∨ desk = .held i .sent ∨ desk = .held i .accepted := by
  induction h with
  | nil => simp at hmem
  | claimed h hlast hnew ih => grind
  | sent h ih => grind
  | accepted h ih => grind
  | outcome h => grind

theorem sent_of_held (h : Orderly trace desk) (hdesk : desk = .held i stage) (hstage : stage ≠ .claimed) :
    (i, .sent) ∈ trace := by
  induction h generalizing stage with
  | nil => cases hdesk
  | claimed h hlast hnew ih => grind
  | sent h ih => grind
  | accepted h ih => grind
  | outcome h => cases hdesk

theorem accepted_of_held (h : Orderly trace desk) (hdesk : desk = .held i stage) (hmem : (i, .accepted) ∈ trace) :
    stage = .accepted := by
  induction h generalizing stage with
  | nil => cases hdesk
  | claimed h hlast hnew ih => grind
  | sent h ih => grind
  | accepted h ih => grind
  | outcome h => cases hdesk

/-- The outcome of an attempt whose mail was accepted is a success. -/
theorem accepted_success (h : Orderly trace desk) (haccepted : (i, .accepted) ∈ trace)
    (hmem : (i, .outcome success) ∈ trace) : success = true := by
  induction h with
  | nil => simp at hmem
  | claimed h hlast hnew ih => grind
  | sent h ih => grind
  | accepted h ih => grind [Orderly.outcome_done]
  | outcome h _ hvalue ih => grind [Orderly.accepted_of_held]

/-- An orderly trace has what a report may expect of its attempts. -/
theorem exclusive (h : Orderly trace desk) : Exclusive trace := by
  rintro newer j mid i older rfl
  obtain ⟨_, hclaim⟩ := h.suffix
  cases hclaim with
  | claimed hmid =>
      obtain ⟨_, hfirst⟩ := hmid.suffix
      rcases hmid.claimed_closed (i := i) (by simp) with ⟨success, hmem⟩ | ⟨stage, hdesk⟩
      · refine .inl ⟨success, ?_⟩
        cases hfirst with
        | claimed hfirst _ hnew => simpa [hnew] using hmem
      · cases hdesk

theorem notSentAgain (h : Orderly trace desk) : NotSentAgain trace := by
  rintro newer j mid i older rfl haccepted
  obtain ⟨_, hsend⟩ := h.suffix
  cases hsend with
  | sent hmid =>
      rcases hmid.sent_closed (i := i) (by simp) with ⟨success, hmem⟩ | hdesk | hdesk
      · have hsuccess := h.accepted_success haccepted (List.mem_append_right _ (List.mem_cons_of_mem _ hmem))
        subst hsuccess
        cases hmid.success_last hmem
      · cases hdesk
      · cases hdesk

theorem lastSent (h : Orderly trace desk) : LastSent trace := by
  rintro newer i success mid j older rfl hnone
  obtain ⟨_, hwrite⟩ := h.suffix
  cases hwrite with
  | @outcome _ _ stage _ hmid hsent haccepted =>
      rcases hmid.sent_closed (i := j) (by simp) with ⟨success', hmem⟩ | hdesk | hdesk
      · by_cases hij : i = j
        · exact .inl hij
        · right
          -- An earlier success would have been the last word.
          have hfailed : success' = false := by
            cases success' with
            | false => rfl
            | true => cases hmid.success_last hmem
          have hunsent : success = false := by
            cases success with
            | false => rfl
            | true =>
                exfalso
                have hown := hmid.sent_of_held rfl (hsent rfl)
                rcases List.mem_append.mp hown with hown | hown
                · exact hnone i hown
                rcases List.mem_cons.mp hown with heq | hown
                · exact hij (congrArg Prod.fst heq)
                · obtain ⟨_, hsend⟩ := hmid.suffix
                  cases hsend with
                  | sent hsend =>
                      rcases hsend.sent_closed hown with ⟨own, hdone⟩ | hdesk | hdesk
                      · exact hmid.outcome_done (List.mem_append_right _ (List.mem_cons_of_mem _ hdone)) rfl
                      · cases hdesk
                      · cases hdesk
          obtain ⟨_, hsend⟩ := hmid.suffix
          cases hsend with
          | sent hsend =>
              subst hfailed hunsent
              have hbefore : (j, Note.outcome false) ∉ older := fun hdone => hsend.outcome_done hdone rfl
              simpa [hbefore] using hmem
      · cases hdesk
        exact .inl rfl
      · cases hdesk
        exact .inl rfl

end Orderly

/-! ## What a commit notes -/

abbrev Entry := Commit Key Row Call

def noteOf (reportId : String) (before after : Table Key Row) : Option Note :=
  match (after.row (.notes reportId) : Option (List Note)) with
  | some (note :: earlier) =>
      if earlier = (before.row (.notes reportId) : Option (List Note)).getD [] then some note else none
  | _ => none

def traceOf (reportId : String) (history : List Entry) : Trace :=
  history.filterMap fun e => (noteOf reportId e.before e.after).map (Prod.mk e.id)

section

variable {t u : Table Key Row} {reportId : String} {note : Note}

theorem noteOf_same (h : u.row (.notes reportId) = t.row (.notes reportId)) : noteOf reportId t u = none := by
  unfold noteOf
  rw [h]
  cases hrow : (t.row (.notes reportId) : Option (List Note)) with
  | none => rfl
  | some notes =>
      cases notes with
      | nil => rfl
      | cons note earlier => simp

theorem noteOf_pushed (h : u.row (.notes reportId) =
    some (note :: (t.row (.notes reportId) : Option (List Note)).getD [])) : noteOf reportId t u = some note := by
  unfold noteOf
  rw [h]
  simp

end

/-- A transaction that leaves the reports and what is noted about them. -/
def Quiet (ops : List (Write Key Row)) : Prop :=
  ∀ w ∈ ops, ∀ reportId, .report reportId ≠ w.key ∧ .notes reportId ≠ w.key

/-- What a claim may not meet: a report that is already under way. -/
def NotUnderWay (ops : List (Write Key Row)) (t : Table Key Row) : Prop :=
  ∀ reportId (report : Report), noteOf reportId t (t.apply ops) = some .claimed →
    t.row (.report reportId) = some report → report.status ≠ some "email_resending"

/-! ## What a run keeps -/

/-- How far a call is. -/
inductive Phase where
  | ready
  | holding (reportId : String) (stage : Stage)
  | done

/-- The stored report of a desk. -/
def Desk.Stands : Desk → Option Report → Prop
  | .held _ _, row => ∃ report, row = some report ∧ report.status = some "email_resending"
  | .free (some true), row =>
      ∃ report, row = some report ∧ report.status = some "email_sent" ∧ report.emailStatus = some "sent"
  | .free _, _ => True

/-- Every report has its desk, and a call that holds a report is at it. -/
structure Desked (w : View Key Row Call) (g : ℕ → Option Phase) (desks : String → Desk) : Prop where
  orderly : ∀ reportId, Orderly (traceOf reportId w.history) (desks reportId)
  stands : ∀ reportId, (desks reportId).Stands (w.table.row (.report reportId))
  holding : ∀ i reportId stage, g i = some (.holding reportId stage) → desks reportId = .held i stage
  ready : ∀ i, g i = some .ready → ∀ e ∈ w.history, e.id ≠ i

def OneByOne (w : View Key Row Call) (g : ℕ → Option Phase) : Prop := ∃ desks, Desked w g desks

section

variable {w : View Key Row Call} {g : ℕ → Option Phase} {desks : String → Desk} {i : ℕ} {c : Call}
  {ops : List (Write Key Row)} {reportId : String} {note : Note} {desk : Desk} {x : Phase}

/-- A call that holds nothing may come and go. -/
theorem Desked.learn {x : Option Phase} (h : Desked w g desks) (hx : ∀ reportId stage, x ≠ some (.holding reportId stage))
    (hnew : x = some .ready → ∀ e ∈ w.history, e.id ≠ i) : Desked w (Function.update g i x) desks where
  orderly := h.orderly
  stands := h.stands
  holding j reportId stage hj := by
    by_cases heq : j = i
    · subst heq
      rw [Function.update_self] at hj
      exact absurd hj (hx _ _)
    · rw [Function.update_of_ne heq] at hj
      exact h.holding j reportId stage hj
  ready j hj := by
    by_cases heq : j = i
    · subst heq
      rw [Function.update_self] at hj
      exact hnew hj
    · rw [Function.update_of_ne heq] at hj
      exact h.ready j hj

theorem OneByOne.learn {x : Option Phase} (h : OneByOne w g) (hx : ∀ reportId stage, x ≠ some (.holding reportId stage))
    (hnew : x = some .ready → ∀ e ∈ w.history, e.id ≠ i) : OneByOne w (Function.update g i x) := by
  obtain ⟨desks, hdesks⟩ := h
  exact ⟨desks, hdesks.learn hx hnew⟩

theorem row_quiet (t : Table Key Row) (reportId : String) (h : Quiet ops) :
    (t.apply ops).row (.report reportId) = t.row (.report reportId) ∧
      (t.apply ops).row (.notes reportId) = t.row (.notes reportId) := by
  exact ⟨Table.row_apply_of_notMem _ _ _ fun w hw => (h w hw reportId).1,
    Table.row_apply_of_notMem _ _ _ fun w hw => (h w hw reportId).2⟩

theorem OneByOne.quiet (h : OneByOne w g) (hi : g i = some x) (hx : x ≠ .ready) (hops : Quiet ops) :
    OneByOne (w.commit i c ops) g := by
  obtain ⟨desks, hdesks⟩ := h
  refine ⟨desks, fun reportId => ?_, fun reportId => ?_, hdesks.holding, fun j hj e he => ?_⟩
  · have hnone := noteOf_same (row_quiet w.table reportId hops).2
    simpa [traceOf, hnone] using hdesks.orderly reportId
  · rw [View.table_commit, (row_quiet _ _ hops).1]
    exact hdesks.stands reportId
  · rcases List.mem_cons.mp he with rfl | he
    · rintro rfl
      exact hx (Option.some.inj (hi.symm.trans hj))
    · exact hdesks.ready j hj e he

/-- What is noted about one report moves its desk. -/
theorem Desked.noted (h : Desked w g desks) (hdesk : ∀ j stage, desks reportId = .held j stage → j = i)
    (hready : x ≠ .ready)
    (hpushed : (w.table.apply ops).row (.notes reportId) =
      some (note :: (w.table.row (.notes reportId) : Option (List Note)).getD []))
    (hothers : ∀ other, other ≠ reportId →
      (w.table.apply ops).row (.report other) = w.table.row (.report other) ∧
        (w.table.apply ops).row (.notes other) = w.table.row (.notes other))
    (horderly : Orderly ((i, note) :: traceOf reportId w.history) desk)
    (hstands : desk.Stands ((w.table.apply ops).row (.report reportId)))
    (hholding : ∀ other stage, x = .holding other stage → other = reportId ∧ desk = .held i stage) :
    OneByOne (w.commit i c ops) (Function.update g i (some x)) := by
  refine ⟨Function.update desks reportId desk, fun other => ?_, fun other => ?_, fun j other stage hj => ?_,
    fun j hj e he => ?_⟩
  · by_cases heq : other = reportId
    · subst heq
      simpa [traceOf, noteOf_pushed hpushed] using horderly
    · have hnone := noteOf_same (hothers other heq).2
      simpa [traceOf, hnone, heq] using h.orderly other
  · by_cases heq : other = reportId
    · subst heq
      simpa using hstands
    · simpa [heq, (hothers other heq).1] using h.stands other
  · by_cases hij : j = i
    · subst hij
      rw [Function.update_self] at hj
      obtain ⟨rfl, rfl⟩ := hholding other stage (Option.some.inj hj)
      exact Function.update_self ..
    · rw [Function.update_of_ne hij] at hj
      have hheld := h.holding j other stage hj
      rwa [Function.update_of_ne]
      rintro rfl
      exact hij (hdesk j stage hheld)
  · by_cases hij : j = i
    · subst hij
      rw [Function.update_self] at hj
      exact absurd (Option.some.inj hj) hready
    · rw [Function.update_of_ne hij] at hj
      rcases List.mem_cons.mp he with rfl | he
      · exact fun heq => hij heq.symm
      · exact h.ready j hj e he

end

/-! ## Calls -/

section

-- The checks of the texts are not looked into.
attribute [local irreducible] requiredPrivateString

variable {F : Access Key Row} {i : ℕ} {c : Call} {α β : Type} {x : Phase} {a : Attempt}
  {Cond : Program Key Row (Except Raised β) → Table Key Row → Prop} {Q : Except Raised β → Phase → Prop}
  {reportId : String} {stage : Stage}

/-- What leaves the reports alone may come first. -/
theorem keeps_quiet_bind {y : Action α} {f : α → Action β} (hy : y.run.Submits Quiet) (hx : x ≠ .ready)
    (hok : ∀ a, (f a).run.Keeps F OneByOne Cond i c Q x) (herror : ∀ e, Q (.error e) x) :
    (y >>= f).run.Keeps F OneByOne Cond i c Q x := by
  refine Handler.keeps_bind ((hy.keeps (Q := fun _ x' => x' = x) (fun _ => rfl) ?_).mono fun r x' heq => ?_)
  · exact fun ops next w g hops hw hi _ _ => hw.quiet hi hx hops
  · subst heq
    cases r with
    | ok a => exact hok a
    | error e => exact herror e

theorem keeps_quiet {y : Action β} (hy : y.run.Submits Quiet) (hx : x ≠ .ready) (hQ : ∀ r, Q r x) :
    y.run.Keeps F OneByOne Cond i c Q x :=
  hy.keeps hQ fun _ _ _ _ hops hw hi _ _ => hw.quiet hi hx hops

theorem submits_raises {T : List (Write Key Row) → Prop} (done : Bool) : (raises done).run.Submits T := by
  cases done <;> trivial

theorem submits_writeReportAudit (result : String) : (writeReportAudit a reportId result).run.Submits Quiet :=
  Handler.submits_submit_bind (by simp [Quiet, Write.putNew, Write.put]) submits_raises

theorem submits_refused (code : ReportRecoveryErrorCode) :
    (refused a reportId code : Action α).run.Submits Quiet :=
  Handler.submits_bind (submits_writeReportAudit _) fun _ => trivial

theorem submits_requireFence {T : List (Write Key Row) → Prop} (ownerId : String) (generation : Option ℤ) :
    (requireFence ownerId generation).run.Submits T :=
  Handler.submits_bind Handler.submits_get fun fence => by
    cases requireActiveAccountFence fence generation <;> trivial

theorem submits_of {T : List (Write Key Row) → Prop} (y : Except Raised α) :
    (Handler.of y : Action α).run.Submits T := trivial

theorem submits_registerReportEmailIntent (ownerId : String) (generation : ℤ) (body recipient : String) :
    (registerReportEmailIntent a ownerId generation reportId body recipient).run.Submits Quiet := by
  refine Handler.submits_bind (submits_of _) fun owner => Handler.submits_bind (submits_of _) fun operation => ?_
  refine Handler.submits_bind (submits_of _) fun _ => Handler.submits_bind (submits_of _) fun _ => ?_
  refine Handler.submits_bind (submits_of _) fun report => ?_
  refine Handler.submits_submit_bind (by simp [Quiet, Write.check, Write.putNew, Write.put]) fun done => ?_
  exact Handler.submits_bind (submits_raises done) fun _ => trivial

theorem submits_claimReportEmailIntent (owner operation : String) (generation : ℤ) :
    (claimReportEmailIntent a owner operation generation).run.Submits Quiet := by
  refine Handler.submits_bind (submits_requireFence _ _) fun _ => ?_
  refine Handler.submits_submit_bind (by simp [Quiet, Write.modify]) fun done => ?_
  refine Handler.submits_bind (submits_raises done) fun _ => ?_
  exact Handler.submits_bind (submits_requireFence _ _) fun _ => trivial

/-- What becomes of the mail, and how far the attempt then is. -/
def Delivered (reportId : String) (r : Except Raised Bool) (x : Phase) : Prop :=
  ∃ stage, x = .holding reportId stage ∧ (r = .ok true → stage ≠ .claimed) ∧ (stage = .accepted → r = .ok true)

theorem row_notes (t : Table Key Row) (reportId : String) (note : Note) :
    (t.apply [notes reportId note]).row (.notes reportId) =
        some (note :: (t.row (.notes reportId) : Option (List Note)).getD []) ∧
      ∀ key, key ≠ .notes reportId → (t.apply [notes reportId note]).row key = t.row key :=
  ⟨Table.row_set_self (V := Row) _ _ _, fun _ hkey => Table.row_set_of_ne (V := Row) _ _ hkey⟩

/-- What is noted while an attempt holds a report. -/
theorem OneByOne.notedAlone {w : View Key Row Call} {g : ℕ → Option Phase} {note : Note} {stage' : Stage}
    (h : OneByOne w g) (hi : g i = some (.holding reportId stage))
    (horderly : ∀ trace, Orderly trace (.held i stage) → Orderly ((i, note) :: trace) (.held i stage')) :
    OneByOne (w.commit i c [notes reportId note]) (Function.update g i (some (.holding reportId stage'))) := by
  obtain ⟨desks, hdesks⟩ := h
  have hdesk := hdesks.holding i reportId stage hi
  obtain ⟨hpushed, hothers⟩ := row_notes w.table reportId note
  refine hdesks.noted (fun j stage hj => ?_) (by simp) hpushed (fun other hne => ?_)
    (horderly _ (hdesk ▸ hdesks.orderly reportId)) ?_ fun other stage hheld => ?_
  · cases hdesk.symm.trans hj
    rfl
  · exact ⟨hothers _ (by simp), hothers _ (by simpa using hne)⟩
  · rw [hothers _ (by simp)]
    have hstands := hdesks.stands reportId
    rw [hdesk] at hstands
    exact hstands
  · cases hheld
    exact ⟨rfl, rfl⟩

theorem keeps_sendEmail {Cond : Program Key Row (Except Raised Bool) → Table Key Row → Prop} :
    (sendEmail reportId).run.Keeps F OneByOne Cond i c (Delivered reportId) (.holding reportId .claimed) := by
  have hunknown : ∀ stage, stage ≠ .accepted → Delivered reportId (.ok false) (.holding reportId stage) :=
    fun stage hstage => ⟨stage, rfl, by simp, fun h => absurd h hstage⟩
  refine Handler.keeps_submit_bind (hunknown _ (by decide)) fun w g hw hi _ _ => ?_
  have hsent := hw.notedAlone (c := c) hi fun _ h => Orderly.sent h
  refine ⟨⟨_, hsent, ?_⟩, _, hsent, hunknown _ (by decide)⟩
  have hknown : ∀ stage, stage ≠ .claimed → Delivered reportId (.ok true) (.holding reportId stage) :=
    fun stage hstage => ⟨stage, rfl, fun _ => hstage, fun _ => rfl⟩
  refine Handler.keeps_submit_bind (hknown _ (by decide)) fun w g hw hi _ _ => ?_
  have haccepted := hw.notedAlone (c := c) hi fun _ h => Orderly.accepted h
  exact ⟨⟨_, haccepted, hknown _ (by decide)⟩, _, haccepted, hknown _ (by decide)⟩

theorem keeps_delivers {Cond : Program Key Row (Except Raised Bool) → Table Key Row → Prop} (report : Report)
    (recipient : String) : (delivers a report reportId recipient).run.Keeps F OneByOne Cond i c
      (Delivered reportId) (.holding reportId .claimed) := by
  have hraised : ∀ e, Delivered reportId (.error e) (.holding reportId .claimed) :=
    fun e => ⟨.claimed, rfl, by simp, by simp⟩
  unfold delivers
  cases a.html with
  | none => exact hraised _
  | some html =>
      refine keeps_quiet_bind (submits_requireFence _ _) (by simp) (fun generation => ?_) hraised
      refine keeps_quiet_bind (submits_registerReportEmailIntent _ _ _ _) (by simp) (fun operation => ?_) hraised
      refine keeps_quiet_bind (submits_of _) (by simp) (fun owner => ?_) hraised
      refine keeps_quiet_bind (submits_claimReportEmailIntent _ _ _) (by simp) (fun _ => ?_) hraised
      refine keeps_quiet_bind (submits_requireFence _ _) (by simp) (fun _ => ?_) hraised
      exact keeps_sendEmail

/-- A write of a report with its note. -/
theorem row_noting (t : Table Key Row) (note : Note) {w : Write Key Row} (hw : w.key = .report reportId) :
    (t.apply [w, notes reportId note]).row (.notes reportId) =
        some (note :: (t.row (.notes reportId) : Option (List Note)).getD []) ∧
      (t.apply [w, notes reportId note]).row (.report reportId) = (t.apply [w]).row (.report reportId) ∧
      ∀ other, other ≠ reportId →
        (t.apply [w, notes reportId note]).row (.report other) = t.row (.report other) ∧
          (t.apply [w, notes reportId note]).row (.notes other) = t.row (.notes other) := by
  have hnotes : (t.apply [w]).row (.notes reportId) = t.row (.notes reportId) :=
    Table.row_set_of_ne _ _ (by simp [hw])
  refine ⟨?_, (row_notes _ _ _).2 _ (by simp), fun other hne => ⟨?_, ?_⟩⟩
  · have hpushed := (row_notes (t.apply [w]) reportId note).1
    rw [hnotes] at hpushed
    exact hpushed
  · exact ((row_notes _ _ _).2 _ (by simp)).trans (Table.row_set_of_ne _ _ (by simp [hw, hne]))
  · exact ((row_notes _ _ _).2 _ (by simp [hne])).trans (Table.row_set_of_ne _ _ (by simp [hw]))

/-- The outcome of an attempt gives the report back. -/
theorem OneByOne.settled {w : View Key Row Call} {g : ℕ → Option Phase} {success : Bool} (operator : String)
    (h : OneByOne w g) (hi : g i = some (.holding reportId stage)) (hsent : success = true → stage ≠ .claimed)
    (haccepted : stage = .accepted → success = true) :
    OneByOne (w.commit i c (settles reportId operator success)) (Function.update g i (some .done)) := by
  obtain ⟨desks, hdesks⟩ := h
  have hdesk := hdesks.holding i reportId stage hi
  obtain ⟨hpushed, hrow, hothers⟩ := row_noting w.table (.outcome success)
    (w := .update (.report reportId) (fun report : Option Report => (report.getD {}).settled operator success)
      fun _ => true) rfl
  refine hdesks.noted (fun j stage hj => ?_) (by simp) hpushed hothers
    (.outcome (hdesk ▸ hdesks.orderly reportId) hsent haccepted) ?_ (by simp)
  · cases hdesk.symm.trans hj
    rfl
  · have hafter : (w.table.apply (settles reportId operator success)).row (.report reportId) =
        some (((w.table.row (.report reportId) : Option Report).getD {}).settled operator success) :=
      hrow.trans (Table.row_set_self _ _ _)
    rw [hafter]
    cases success with
    | false => trivial
    | true => exact ⟨_, rfl, rfl, rfl⟩

theorem keeps_writeOutcome {success : Bool} {Q : Except Raised Unit → Phase → Prop}
    {Cond : Program Key Row (Except Raised Unit) → Table Key Row → Prop}
    (hsent : success = true → stage ≠ .claimed) (haccepted : stage = .accepted → success = true)
    (hQ : ∀ r x, Q r x) :
    (writeOutcome a reportId success).run.Keeps F OneByOne Cond i c Q (.holding reportId stage) := by
  have hrest : ∀ done x, x ≠ .ready → ((do
      raises done
      writeReportAudit a reportId (if success then "success" else "failed")
      if success then return else throw (.recovery .reportResendFailed) : Action Unit)).run.Keeps
        F OneByOne Cond i c Q x := by
    intro done x hx
    refine keeps_quiet (Handler.submits_bind (submits_raises done) fun _ => ?_) hx fun _ => hQ _ _
    refine Handler.submits_bind (submits_writeReportAudit _) fun _ => ?_
    cases success <;> trivial
  refine Handler.keeps_submit_bind (hrest false _ (by simp)) fun w g hw hi _ _ => ?_
  have hsettled := hw.settled (c := c) a.operator hi hsent haccepted
  exact ⟨⟨_, hsettled, hrest true _ (by simp)⟩, _, hsettled, hrest false _ (by simp)⟩

theorem keeps_resendReportEmail {Q : Except Raised Unit → Phase → Prop}
    {Cond : Program Key Row (Except Raised Unit) → Table Key Row → Prop} (report : Report) (hQ : ∀ r x, Q r x) :
    (resendReportEmail a report reportId).run.Keeps F OneByOne Cond i c Q (.holding reportId .claimed) := by
  have hrefused : ∀ code, (refused a reportId code : Action Unit).run.Keeps F OneByOne Cond i c Q
      (.holding reportId .claimed) := fun code => keeps_quiet (submits_refused code) (by simp) fun _ => hQ _ _
  unfold resendReportEmail
  split
  · exact hrefused _
  split
  · exact hrefused _
  cases a.recipient with
  | relationshipRevoked => exact hrefused _
  | missing => exact hrefused _
  | email address =>
      refine Handler.keeps_bind (Handler.keeps_tryCatch ((keeps_delivers report address).mono fun r x hr => ?_))
      obtain ⟨stage, rfl, hsent, haccepted⟩ := hr
      cases r with
      | ok success =>
          refine keeps_writeOutcome (fun h => hsent (by rw [h])) (fun h => ?_) hQ
          cases haccepted h
          rfl
      | error e => exact keeps_writeOutcome (by simp) (fun h => by cases haccepted h) hQ

/-- A claim takes a report that nobody holds. -/
theorem OneByOne.claimed {w : View Key Row Call} {g : ℕ → Option Phase} {operator : String}
    (h : OneByOne w g) (hi : g i = some .ready) (hadmits : w.table.Admits (claims reportId operator))
    (hfree : NotUnderWay (claims reportId operator) w.table) :
    OneByOne (w.commit i c (claims reportId operator))
      (Function.update g i (some (.holding reportId .claimed))) := by
  obtain ⟨desks, hdesks⟩ := h
  obtain ⟨hpushed, hrow, hothers⟩ := row_noting w.table .claimed
    (w := .modify (.report reportId) (fun report : Report => report.resending operator) fun report : Report =>
      report.claimable) rfl
  have hclaimable : ((w.table.row (.report reportId) : Option Report)).any Report.claimable = true :=
    hadmits.2 _ (List.mem_cons_self ..)
  have hafter : (w.table.apply (claims reportId operator)).row (.report reportId) =
      ((w.table.row (.report reportId) : Option Report)).map fun report => report.resending operator :=
    hrow.trans (Table.row_set_self _ _ _)
  cases hstored : (w.table.row (.report reportId) : Option Report) with
  | none => simp [hstored] at hclaimable
  | some report =>
      rw [hstored] at hclaimable hafter
      have hstatus := hfree reportId report (noteOf_pushed hpushed) hstored
      have hstands := hdesks.stands reportId
      rw [hstored] at hstands
      cases hdesk : desks reportId with
      | held j stage =>
          rw [hdesk] at hstands
          obtain ⟨_, heq, hresending⟩ := hstands
          cases heq
          exact absurd hresending hstatus
      | free last =>
          have hlast : last ≠ some true := by
            rintro rfl
            rw [hdesk] at hstands
            obtain ⟨_, heq, hsent, hemail⟩ := hstands
            cases heq
            simp [Report.claimable, hsent, hemail] at hclaimable
          refine hdesks.noted (fun j stage hj => ?_) (by simp) hpushed hothers
            (.claimed (hdesk ▸ hdesks.orderly reportId) hlast fun note hmem => ?_) ?_ fun other stage hheld => ?_
          · cases hdesk.symm.trans hj
          · obtain ⟨e, he, hnote⟩ := List.mem_filterMap.mp hmem
            obtain ⟨_, -, heq⟩ := Option.map_eq_some_iff.mp hnote
            exact hdesks.ready i hi e he (congrArg Prod.fst heq)
          · rw [hafter]
            exact ⟨_, rfl, rfl⟩
          · cases hheld
            exact ⟨rfl, rfl⟩

theorem keeps_executeResendTarget :
    (executeResendTarget a).run.Keeps F OneByOne (Committing (fun _ => NotUnderWay) c) i c (fun _ _ => True)
      .ready := by
  unfold executeResendTarget
  cases a.found with
  | none => trivial
  | some report =>
      dsimp only
      cases report.reportId with
      | none => trivial
      | some reportId =>
          refine Handler.keeps_submit_bind trivial fun w g hw hi hadmits hcond => ?_
          have hclaimed := hw.claimed (c := c) hi hadmits (hcond _ _ rfl)
          refine ⟨⟨_, hclaimed, ?_⟩, _, hclaimed, trivial⟩
          refine Handler.keeps_tryCatch (Handler.keeps_bind (keeps_resendReportEmail report fun r x => ?_))
          cases r with
          | ok _ => trivial
          | error e => cases e <;> trivial

theorem keeps_setFence (userId : String) (fence : FenceRow) :
    (service.body (.setFence userId fence)).Keeps F OneByOne (Committing (fun _ => NotUnderWay) c) i c
      (fun _ _ => True) .done :=
  keeps_quiet (Handler.submits_submit_bind (by simp [Quiet, Write.put]) fun _ => trivial) (by simp)
    fun _ => trivial

end

/-! ## Every run -/

/-- While no claim meets a report that is already under way, one attempt at a time
resends it, no mail follows an accepted one, and every outcome that is written is that
of the attempt that was sent last. -/
theorem resends_one_by_one {t : Table Key Row} {s : State Key Row Call (Except Raised Outcome)}
    (h : StepsMeeting service (Committing fun _ => NotUnderWay) (.initial t) s) (reportId : String) :
    Exclusive (traceOf reportId s.history) ∧ NotSentAgain (traceOf reportId s.history) ∧
      LastSent (traceOf reportId s.history) := by
  obtain ⟨g, hg⟩ := h.kept (Φ := OneByOne) (Q := fun _ _ _ => True)
    ⟨fun _ => .free none, fun _ => .nil, fun _ => trivial, by simp, by simp⟩
    (fun w g i hw => hw.learn (by simp) (by simp))
    (fun w g t hw ht => by rwa [show ({ w with table := t } : View Key Row Call) = w from ht ▸ rfl])
    (fun _ _ _ hw _ => let ⟨desks, hdesks⟩ := hw; ⟨desks, ⟨hdesks.orderly, hdesks.stands, hdesks.holding, hdesks.ready⟩⟩)
    fun c w g i hw _ hnew _ => by
      cases c with
      | resend a => exact ⟨.ready, hw.learn (by simp) fun _ => hnew, keeps_executeResendTarget⟩
      | setFence userId fence => exact ⟨.done, hw.learn (by simp) (by simp), keeps_setFence userId fence⟩
  obtain ⟨desks, hdesks⟩ := hg.holds
  have horderly := hdesks.orderly reportId
  exact ⟨horderly.exclusive, horderly.notSentAgain, horderly.lastSent⟩

/-! ## An attempt that runs alone -/

section

attribute [local irreducible] requiredPrivateString

variable {a : Attempt} {c : Call} {reportId : String} {t : Table Key Row}

/-- A transaction that notes no claim. -/
def Unclaiming (ops : List (Write Key Row)) : Prop :=
  ∀ t reportId, noteOf reportId t (t.apply ops) ≠ some .claimed

theorem Quiet.unclaiming {ops : List (Write Key Row)} (h : Quiet ops) : Unclaiming ops := fun t reportId => by
  simp [noteOf_same (row_quiet t reportId h).2]

theorem unclaiming_notes {note : Note} {w : List (Write Key Row)} (hnote : note ≠ .claimed)
    (hw : ∀ v ∈ w, v.key = .report reportId) : Unclaiming (w ++ [notes reportId note]) := fun t other => by
  have hnotes : ∀ other, (t.apply w).row (.notes other) = t.row (.notes other) := fun other =>
    Table.row_apply_of_notMem _ _ _ fun v hv => by simp [hw v hv]
  rw [Table.apply_append]
  by_cases heq : other = reportId
  · subst heq
    have hpushed := (row_notes (t.apply w) other note).1
    rw [hnotes] at hpushed
    simpa [noteOf_pushed hpushed] using hnote
  · have hsame := (row_notes (t.apply w) reportId note).2 (.notes other) (by simpa)
    rw [hnotes] at hsame
    simp [noteOf_same hsame]

theorem submits_resendReportEmail (report : Report) :
    (resendReportEmail a report reportId).run.Submits Unclaiming := by
  have hquiet : ∀ {α : Type} {y : Action α}, y.run.Submits Quiet → y.run.Submits Unclaiming :=
    fun hy => hy.imp fun _ h => h.unclaiming
  have hsend : (sendEmail reportId).run.Submits Unclaiming := by
    refine Handler.submits_submit_bind (unclaiming_notes (w := []) (by decide) (by simp)) fun done => ?_
    cases done with
    | false => trivial
    | true => exact Handler.submits_submit_bind (unclaiming_notes (w := []) (by decide) (by simp)) fun _ => trivial
  have hdelivers : ∀ address, (delivers a report reportId address).run.Submits Unclaiming := fun address => by
    unfold delivers
    cases a.html with
    | none => trivial
    | some html =>
        refine Handler.submits_bind (submits_requireFence _ _) fun generation => ?_
        refine Handler.submits_bind (hquiet (submits_registerReportEmailIntent _ _ _ _)) fun operation => ?_
        refine Handler.submits_bind (submits_of _) fun owner => ?_
        refine Handler.submits_bind (hquiet (submits_claimReportEmailIntent _ _ _)) fun _ => ?_
        exact Handler.submits_bind (submits_requireFence _ _) fun _ => hsend
  unfold resendReportEmail
  split
  · exact hquiet (submits_refused _)
  split
  · exact hquiet (submits_refused _)
  cases a.recipient with
  | relationshipRevoked => exact hquiet (submits_refused _)
  | missing => exact hquiet (submits_refused _)
  | email address =>
      have hcaught : (tryCatch (delivers a report reportId address) fun _ => pure false : Action Bool).run.Submits
          Unclaiming := Handler.submits_tryCatch (hdelivers address) fun _ => trivial
      refine Handler.submits_bind hcaught fun success => ?_
      refine Handler.submits_submit_bind (unclaiming_notes (w := [_]) (by simp) (by simp [Write.update]))
        fun done => ?_
      refine Handler.submits_bind (submits_raises done) fun _ => ?_
      refine Handler.submits_bind (hquiet (submits_writeReportAudit _)) fun _ => ?_
      cases success <;> trivial

/-- Alone, an attempt that finds the report idle meets the condition. -/
theorem aloneMeets_executeResendTarget
    (hidle : ∀ reportId (report : Report), t.row (.report reportId) = some report →
      report.status ≠ some "email_resending") :
    (executeResendTarget a).run.AloneMeets (Committing (fun _ => NotUnderWay) c) t := by
  unfold executeResendTarget
  cases a.found with
  | none => trivial
  | some report =>
      dsimp only
      cases report.reportId with
      | none => trivial
      | some reportId =>
          have hresend : (do resendReportEmail a report reportId; return .success : Action Outcome).run.Submits
              Unclaiming := Handler.submits_bind (submits_resendReportEmail report) fun _ => trivial
          have hrest : (tryCatch (do resendReportEmail a report reportId; return .success) outcomeOf :
              Action Outcome).run.Submits Unclaiming :=
            Handler.submits_tryCatch hresend fun e => by cases e <;> trivial
          refine ⟨fun _ => ⟨fun ops next heq id report _ => ?_, ?_⟩, fun _ => trivial⟩
          · exact hidle id report
          · refine hrest.aloneMeets (fun ops next t hops ops' next' heq => ?_) _
            cases heq
            exact fun id _ hclaimed _ => absurd hclaimed (hops t id)

end

/-! ## Two attempts on one report -/

namespace ResendSample

def report : Report where
  reportId := some "report"
  studentId := some "student"
  status := some "email_failed"
  emailStatus := some "failed"
  htmlS3Key := some "weekly-reports/report.html"

def stored : Table Key Row := Table.empty.apply
  [.put (.report "report") report fun _ => true, .put (.accountFence "student") ⟨"active", some 1⟩ fun _ => true]

/-- An attempt of a job. -/
def attempt (job : String) : Attempt :=
  ⟨some report, .email "parent@example.org", some "report", "operator", "resend", job,
    "operation-" ++ job, "lease-" ++ job, "event-" ++ job⟩

abbrev Run := State Key Row Call (Except Raised Outcome)

def alone : Run := (State.initial stored).solo service (.resend (attempt "a")) []

/-- Both attempts have claimed the report, one after the other. -/
def claimed : Run :=
  (((State.initial stored).launch service (.resend (attempt "a"))).advance 0 1 |>.launch service (.resend (attempt "b"))).advance 1 1

/-- The mail of the first is accepted, that of the second is in doubt; then each
writes its outcome, the second one first. -/
def overlapped : Run :=
  ((claimed.advance 0 8).finish 1 [.answered, .answered, .lost]).finish 0 []

theorem overlapped_reachable : Reachable service stored overlapped := by
  have hclaimed : Steps service (.initial stored) claimed :=
    (((State.launch_steps trivial).trans (State.advance_steps _ _ _)).trans (State.launch_steps trivial)).trans
      (State.advance_steps _ _ _)
  exact ((hclaimed.trans (State.advance_steps _ _ _)).trans (State.finish_steps trivial trivial _ _ _)).trans
    (State.finish_steps trivial trivial _ _ _)

theorem alone_meets : StepsMeeting service (Committing fun _ => NotUnderWay) (.initial stored) alone := by
  refine StepsMeeting.solo (c := Call.resend (attempt "a")) .refl trivial
    (aloneMeets_executeResendTarget (a := attempt "a") (t := stored) fun reportId row hrow => ?_)
  by_cases heq : reportId = "report"
  · subst heq
    cases hrow
    decide
  · have hnone : stored.row (.report reportId) = none := by
      refine (Table.row_apply_of_notMem (V := Row) _ _ _ fun w hw => ?_).trans rfl
      rcases List.mem_cons.mp hw with rfl | hw
      · simpa [Write.put, Write.update] using heq
      · simp [List.mem_singleton.mp hw, Write.put]
    cases hnone.symm.trans hrow

end ResendSample

theorem resends_one_by_one_sample :
    traceOf "report" ResendSample.alone.history =
      [(0, .outcome true), (0, .accepted), (0, .sent), (0, .claimed)] ∧
    Exclusive (traceOf "report" ResendSample.alone.history) :=
  ⟨by decide +kernel, (resends_one_by_one ResendSample.alone_meets "report").1⟩

/-- Two attempts overlap on one report: the mail is sent again after it was accepted,
and the outcome that stands is not that of the attempt that was sent last. -/
theorem resends_overlap : Reachable service ResendSample.stored ResendSample.overlapped ∧
    traceOf "report" ResendSample.overlapped.history =
      [(0, .outcome true), (1, .outcome false), (1, .sent), (0, .accepted), (0, .sent), (1, .claimed),
        (0, .claimed)] ∧
    ¬ Exclusive (traceOf "report" ResendSample.overlapped.history) ∧
    ¬ NotSentAgain (traceOf "report" ResendSample.overlapped.history) ∧
    ¬ LastSent (traceOf "report" ResendSample.overlapped.history) := by
  have htrace : traceOf "report" ResendSample.overlapped.history =
      [(0, .outcome true), (1, .outcome false), (1, .sent), (0, .accepted), (0, .sent), (1, .claimed),
        (0, .claimed)] := by decide +kernel
  refine ⟨ResendSample.overlapped_reachable, htrace, ?_, ?_, ?_⟩
  · intro h
    rcases h [(0, .outcome true), (1, .outcome false), (1, .sent), (0, .accepted), (0, .sent)] 1 [] 0 [] htrace with
      ⟨_, hmem⟩ | hdead
    · cases hmem
    · exact hdead (.outcome true) (List.mem_cons_self ..)
  · intro h
    exact h [(0, .outcome true), (1, .outcome false)] 1 [(0, .accepted)] 0 [(1, .claimed), (0, .claimed)] htrace
      (by rw [htrace]; decide)
  · intro h
    have hlast := h [] 0 true [(1, .outcome false)] 1 [(0, .accepted), (0, .sent), (1, .claimed), (0, .claimed)]
      htrace (by simp)
    revert hlast
    decide

end Stoa.ReportResend
