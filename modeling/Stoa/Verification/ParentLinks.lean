import Stoa.Model.ParentLink
import Stoa.Store.Decisions
import Stoa.Store.Solo

/-! # Who confirms a parent link

Every write of a pair is decided on a link that was read. While that link is still
the stored one, and no call is late with its time, the links of a pair only advance;
so nobody confirms their own request. -/

namespace Stoa.ParentLink

open RowStore

variable {wiring : Wiring}

/-! ## What a write of a pair does -/

/-- The transaction that writes both sides of a pair, with or without the fences. -/
def WritesPair (body : Link) (grounds : Grounds) (parentSide studentSide : Option Link → Bool)
    (ops : List (Write Key Row)) : Prop :=
  ops = rewrites body grounds parentSide studentSide ∨
    ∃ m n, ops = fenced body m n (rewrites body grounds parentSide studentSide)

section

variable {t : Table Key Row} {body : Link} {grounds : Grounds} {parentSide studentSide : Option Link → Bool}
  {ops : List (Write Key Row)}

theorem WritesPair.admits (h : WritesPair body grounds parentSide studentSide ops) (ha : t.Admits ops) :
    parentSide (t.row (.parentSide body.parentId body.studentId)) = true ∧
      studentSide (t.row (.studentSide body.studentId body.parentId)) = true := by
  rcases h with rfl | ⟨m, n, rfl⟩
  · exact ⟨ha.2 _ (List.mem_cons_self ..), ha.2 _ (List.mem_cons_of_mem _ (List.mem_cons_self ..))⟩
  · have hmem : ∀ w ∈ rewrites body grounds parentSide studentSide,
        w ∈ fenced body m n (rewrites body grounds parentSide studentSide) :=
      fun w hw => List.mem_cons_of_mem _ (List.mem_cons_of_mem _ hw)
    exact ⟨ha.2 _ (hmem _ (List.mem_cons_self ..)),
      ha.2 _ (hmem _ (List.mem_cons_of_mem _ (List.mem_cons_self ..)))⟩

theorem apply_fenced (t : Table Key Row) (body : Link) (m n : ℤ) (ops : List (Write Key Row)) :
    t.apply (fenced body m n ops) = t.apply ops := by
  have hchecks : t.apply [.check (.accountFence body.parentId) (activeFenceCondition (some m)),
      .check (.accountFence body.studentId) (activeFenceCondition (some n))] = t :=
    t.apply_checks (by simp [Write.check])
  have happend := t.apply_append [.check (.accountFence body.parentId) (activeFenceCondition (some m)),
    .check (.accountFence body.studentId) (activeFenceCondition (some n))] ops
  rw [hchecks] at happend
  exact happend

/-- Both sides store the body, the grounds are recorded, and nothing else changes. -/
structure PairWritten (t u : Table Key Row) (body : Link) (grounds : Grounds) : Prop where
  parentSide : u.row (.parentSide body.parentId body.studentId) = some body
  studentSide : u.row (.studentSide body.studentId body.parentId) = some body
  grounds : u.row (.grounds body.parentId body.studentId) =
    some (grounds :: (t.row (.grounds body.parentId body.studentId) : Option (List Grounds)).getD [])
  others : ∀ parent student, ¬ (parent = body.parentId ∧ student = body.studentId) →
    u.row (.parentSide parent student) = t.row (.parentSide parent student) ∧
      u.row (.studentSide student parent) = t.row (.studentSide student parent) ∧
      u.row (.grounds parent student) = t.row (.grounds parent student)

theorem WritesPair.written (h : WritesPair body grounds parentSide studentSide ops) :
    PairWritten t (t.apply ops) body grounds := by
  have happly : t.apply ops = t.apply (rewrites body grounds parentSide studentSide) := by
    rcases h with rfl | ⟨m, n, rfl⟩
    · rfl
    · exact apply_fenced _ _ _ _ _
  rw [happly]
  have hlast : ∀ key, key ≠ .grounds body.parentId body.studentId →
      (t.apply (rewrites body grounds parentSide studentSide)).row key =
        (t.apply [.put (.parentSide body.parentId body.studentId) body parentSide,
          .put (.studentSide body.studentId body.parentId) body studentSide]).row key :=
    fun key hkey => Table.row_set_of_ne (V := Row) _ _ hkey
  have hmiddle : ∀ key, key ≠ .studentSide body.studentId body.parentId →
      (t.apply [.put (.parentSide body.parentId body.studentId) body parentSide,
          .put (.studentSide body.studentId body.parentId) body studentSide]).row key =
        (t.apply [.put (.parentSide body.parentId body.studentId) body parentSide]).row key :=
    fun key hkey => Table.row_set_of_ne (V := Row) _ _ hkey
  have hfirst : ∀ key, key ≠ .parentSide body.parentId body.studentId →
      (t.apply [.put (.parentSide body.parentId body.studentId) body parentSide]).row key = t.row key :=
    fun key hkey => Table.row_set_of_ne (V := Row) _ _ hkey
  refine ⟨?_, ?_, ?_, fun parent student hne => ⟨?_, ?_, ?_⟩⟩
  · rw [hlast _ (by simp), hmiddle _ (by simp)]
    exact Table.row_set_self (V := Row) _ _ _
  · rw [hlast _ (by simp)]
    exact Table.row_set_self (V := Row) _ _ _
  · have hpushed : (t.apply (rewrites body grounds parentSide studentSide)).row
        (.grounds body.parentId body.studentId) = some (grounds ::
          ((t.apply [.put (.parentSide body.parentId body.studentId) body parentSide,
            .put (.studentSide body.studentId body.parentId) body studentSide]).row
              (.grounds body.parentId body.studentId) : Option (List Grounds)).getD []) :=
      Table.row_set_self (V := Row) _ _ _
    rw [hpushed, hmiddle _ (by simp), hfirst _ (by simp)]
  · rw [hlast _ (by simp), hmiddle _ (by simp), hfirst _ (by simpa using hne)]
  · rw [hlast _ (by simp), hmiddle _ (by simpa [and_comm] using hne), hfirst _ (by simp)]
  · rw [hlast _ (by simpa using hne), hmiddle _ (by simp), hfirst _ (by simp)]

end

/-! ## What a call may submit -/

/-- Neither party is a minor, by the profiles that were read. -/
def Grounds.Capable (wiring : Wiring) (grounds : Grounds) (at_ : Instant) : Prop :=
  accountIsMinor grounds.parentProfile at_ wiring.adultAgeYears = false ∧
    accountIsMinor grounds.studentProfile at_ wiring.adultAgeYears = false

/-- The stored link is the one that was read, by its status and its stamp. -/
def Link.SameStamp (link stored : Link) : Prop :=
  stored.status = link.status ∧ stored.linkUpdatedAt = link.linkUpdatedAt

instance (link stored : Link) : Decidable (link.SameStamp stored) := inferInstanceAs (Decidable (_ ∧ _))

/-- What a write of a pair rests on; `link` is the stored link, where there is one. -/
structure Judged (wiring : Wiring) (c : Call) (seen : Readings Key Row) (body : Link) (grounds : Grounds)
    (parentSide studentSide : Option Link → Bool) : Prop where
  now : c.now = some body.linkUpdatedAt
  /-- The write finds the status that was read, and it advances the stamp or settles
  the request. -/
  stored : ∀ link, parentSide (some link) = true → studentSide (some link) = true →
    some link.linkUpdatedAt = grounds.link.map Link.linkUpdatedAt → ∃ read, grounds.link = some read ∧
      ⟨.parentSide body.parentId body.studentId, some read⟩ ∈ seen ∧ read.SameStamp link ∧
      (body.linkUpdatedAt ≠ link.linkUpdatedAt ∨ (link.status = .pending ∧ body.status ≠ .pending))
  active : body.status = .active → (∃ r, c = .assignLink r) ∨ ∃ r read, c = .confirmLink r ∧
    grounds.link = some read ∧ read.status = .pending ∧ mayAnswer read r.actorId = .ok () ∧
    pendingExpired read r.now = false ∧ grounds.Capable wiring r.now
  pending : body.status = .pending → ∃ r, c = .requestLink r ∧ r.now = body.linkUpdatedAt ∧
    ∀ link, parentSide (some link) = true → refuseUnlessReclaimable link r.now = .ok ()

/-- The transactions of a call, each with what was read before it. -/
inductive Submitted (wiring : Wiring) : Call → Readings Key Row → List (Write Key Row) → Prop
  | pair {c : Call} {seen : Readings Key Row} {body : Link} {grounds : Grounds}
      {parentSide studentSide : Option Link → Bool} {ops : List (Write Key Row)}
      (hops : WritesPair body grounds parentSide studentSide ops)
      (hjudged : Judged wiring c seen body grounds parentSide studentSide) : Submitted wiring c seen ops
  | profile (user : String) (profile : Profile) (seen : Readings Key Row) :
      Submitted wiring (.setProfile user profile) seen [.put (.profile user) profile fun _ => true]
  | fence (user : String) (fence : FenceRow) (seen : Readings Key Row) :
      Submitted wiring (.setFence user fence) seen [.put (.accountFence user) fence fun _ => true]

/-- A refusal to propose again speaks of nothing but the status and the stamp. -/
theorem refuseUnlessReclaimable_congr {read link : Link} (h : read.SameStamp link) (at_ : Instant) :
    refuseUnlessReclaimable link at_ = refuseUnlessReclaimable read at_ := by
  have hexpired : pendingExpired link at_ = pendingExpired read at_ := by
    unfold pendingExpired
    rw [h.2]
  have hremaining : cooldownRemaining link at_ = cooldownRemaining read at_ := by
    unfold cooldownRemaining
    rw [h.2]
  unfold refuseUnlessReclaimable
  rw [h.1, h.2, hexpired, hremaining]

section

-- The checks of the texts are not looked into.
attribute [local irreducible] required

variable {c : Call} {seen : Readings Key Row} {α : Type}

theorem readOnly_of (x : Except Raised α) : (Handler.of x : Action α).run.ReadOnly := trivial

theorem readOnly_fetch (key : Key) : (fetch key).run.ReadOnly := Handler.readOnly_get

theorem readOnly_getParentSideLink (parentId studentId : String) :
    (getParentSideLink parentId studentId).run.ReadOnly :=
  Handler.readOnly_bind (readOnly_of _) fun _ => Handler.readOnly_bind (readOnly_of _) fun _ => readOnly_fetch _

theorem readOnly_getStudentSideLink (studentId parentId : String) :
    (getStudentSideLink studentId parentId).run.ReadOnly :=
  Handler.readOnly_bind (readOnly_of _) fun _ => Handler.readOnly_bind (readOnly_of _) fun _ => readOnly_fetch _

theorem readOnly_participantFence (userId : String) : (participantFence userId).run.ReadOnly :=
  Handler.readOnly_bind (readOnly_fetch _) fun fence => by
    cases requireActiveAccountFence fence none <;> trivial

theorem readOnly_bothSidesStored (parentId studentId : String) :
    (bothSidesStored parentId studentId).run.ReadOnly :=
  Handler.readOnly_bind (readOnly_getParentSideLink _ _) fun current =>
    Handler.readOnly_bind (readOnly_getStudentSideLink _ _) fun mirror => by
      cases current <;> cases mirror <;> trivial

theorem readOnly_account (userId role : String) : (account userId role).run.ReadOnly :=
  Handler.readOnly_bind (readOnly_fetch _) fun profile => by
    cases profile with
    | none => trivial
    | some profile =>
        dsimp only
        split <;> trivial

/-- A link is read under the pair's key. -/
theorem decides_getParentSideLink {parentId studentId : String} {T : Readings Key Row → List (Write Key Row) → Prop}
    {Q : Except Raised (Option Link) → Readings Key Row → Prop}
    (hok : ∀ parent student row, required parentId "parent_id" = .ok parent →
      required studentId "student_id" = .ok student → Q (.ok row) (⟨.parentSide parent student, row⟩ :: seen))
    (herror : ∀ e seen, Q (.error e) seen) : (getParentSideLink parentId studentId).run.Decides T Q seen := by
  refine Handler.decides_of_bind (fun parent hparent => ?_) fun _ => herror _ _
  refine Handler.decides_of_bind (fun student hstudent => ?_) fun _ => herror _ _
  exact ⟨fun row => hok parent student row hparent hstudent, herror _ _⟩

theorem decides_conditionalRewrite {body : Link} {grounds : Grounds} {condition : Option Link → Bool}
    {refusal : String} (h : ∀ later, seen ⊆ later → Judged wiring c later body grounds condition condition) :
    (conditionalRewrite body grounds condition refusal).run.Decides (Submitted wiring c) (fun _ _ => True) seen := by
  refine Handler.decides_readOnly_bind (readOnly_participantFence _) (fun m later hlater => ?_) fun _ _ => trivial
  refine Handler.decides_readOnly_bind (readOnly_participantFence _) (fun n last hlast => ?_) fun _ _ => trivial
  refine Handler.decides_submit_bind (.pair (.inr ⟨m, n, rfl⟩) (h last (List.Subset.trans hlater hlast))) fun done => ?_
  cases done <;> trivial

variable {parentId studentId : String} {read : Link} {grounds : Grounds}

/-- The link was read, under the key that the write goes to. -/
def ReadAt (parentId studentId : String) (read : Link) (seen : Readings Key Row) : Prop :=
  ∀ parent student, required parentId "parent_id" = .ok parent → required studentId "student_id" = .ok student →
    ⟨.parentSide parent student, some read⟩ ∈ seen

theorem decides_createLink {status : LinkStatus} {initiatorRole : Initiator} {createdBy relationship : String}
    {linkedAt : Instant} (hnow : c.now = some linkedAt) (hactive : status = .active → ∃ r, c = .assignLink r)
    (hpending : status = .pending → ∃ r, c = .requestLink r ∧ r.now = linkedAt) :
    (createLink parentId studentId status initiatorRole createdBy linkedAt relationship grounds).run.Decides
      (Submitted wiring c) (fun _ _ => True) seen := by
  refine Handler.decides_of_bind (fun parent _ => ?_) fun _ => trivial
  refine Handler.decides_of_bind (fun student _ => ?_) fun _ => trivial
  refine Handler.decides_of_bind (fun relationship _ => ?_) fun _ => trivial
  refine Handler.decides_of_bind (fun creator _ => ?_) fun _ => trivial
  refine decides_conditionalRewrite fun later _ => ⟨hnow, fun link h => ?_, fun h => .inl (hactive h), fun h => ?_⟩
  · cases h
  · obtain ⟨r, hcall, hr⟩ := hpending h
    exact ⟨r, hcall, hr, fun link hlink => by cases hlink⟩

theorem decides_reclaimLink {status : LinkStatus} {initiatorRole : Initiator} {createdBy relationship : String}
    {linkedAt : Instant} (hread : ReadAt parentId studentId read seen) (hgrounds : grounds.link = some read)
    (hnow : c.now = some linkedAt) (hactive : status = .active → ∃ r, c = .assignLink r)
    (hpending : status = .pending → ∃ r, c = .requestLink r ∧ r.now = linkedAt ∧
      refuseUnlessReclaimable read r.now = .ok ()) :
    (reclaimLink parentId studentId read.status read.linkUpdatedAt status initiatorRole createdBy linkedAt
      relationship grounds).run.Decides (Submitted wiring c) (fun _ _ => True) seen := by
  refine Handler.decides_of_bind (fun parent hparent => ?_) fun _ => trivial
  refine Handler.decides_of_bind (fun student hstudent => ?_) fun _ => trivial
  dsimp only
  split
  · trivial
  rename_i hadvances
  refine Handler.decides_readOnly_bind (readOnly_bothSidesStored _ _) (fun sides later hlater => ?_)
    fun _ _ => trivial
  split
  · trivial
  split
  · trivial
  refine Handler.decides_of_bind (fun relationship _ => ?_) fun _ => trivial
  refine Handler.decides_of_bind (fun creator _ => ?_) fun _ => trivial
  refine decides_conditionalRewrite fun last hlast => ⟨hnow, fun link hlink _ _ => ?_, fun h => .inl (hactive h),
    fun h => ?_⟩
  · have hsame : read.SameStamp link := of_decide_eq_true hlink
    exact ⟨read, hgrounds, hlast (hlater (hread parent student hparent hstudent)), hsame,
      .inl fun heq => hadvances (heq.trans hsame.2)⟩
  · obtain ⟨r, hcall, hr, hok⟩ := hpending h
    exact ⟨r, hcall, hr, fun link hlink =>
      (refuseUnlessReclaimable_congr (of_decide_eq_true hlink) r.now).trans hok⟩

theorem decides_transitionLink {nextStatus : LinkStatus} {updatedBy : String} {now : Instant}
    (hread : ReadAt parentId studentId read seen) (hstatus : read.status = .pending)
    (hgrounds : grounds.link = some read) (hnow : c.now = some now) (hnext : nextStatus ≠ .pending)
    (hactive : nextStatus = .active → ∃ r, c = .confirmLink r ∧ mayAnswer read r.actorId = .ok () ∧
      pendingExpired read r.now = false ∧ grounds.Capable wiring r.now) :
    (transitionLink parentId studentId .pending nextStatus updatedBy now grounds).run.Decides
      (Submitted wiring c) (fun _ _ => True) seen := by
  refine Handler.decides_of_bind (fun parent hparent => ?_) fun _ => trivial
  refine Handler.decides_of_bind (fun student hstudent => ?_) fun _ => trivial
  dsimp only
  split
  · trivial
  refine Handler.decides_readOnly_bind (readOnly_bothSidesStored _ _) (fun sides later hlater => ?_)
    fun _ _ => trivial
  split
  · trivial
  refine Handler.decides_of_bind (fun updated _ => ?_) fun _ => trivial
  refine decides_conditionalRewrite fun last hlast => ⟨hnow, fun link hlink _ hstamp => ?_, fun h => ?_,
    fun h => absurd h hnext⟩
  · have hpending : link.status = .pending := of_decide_eq_true hlink
    rw [hgrounds] at hstamp
    exact ⟨read, hgrounds, hlast (hlater (hread parent student hparent hstudent)),
      ⟨hpending.trans hstatus.symm, Option.some.inj hstamp⟩, .inr ⟨hpending, hnext⟩⟩
  · obtain ⟨r, hcall, hmay, hlive, hcapable⟩ := hactive h
    exact .inr ⟨r, read, hcall, hgrounds, hstatus, hmay, hlive, hcapable⟩

theorem readAt_self {parent student : String} (hparent : required parentId "parent_id" = .ok parent)
    (hstudent : required studentId "student_id" = .ok student) :
    ReadAt parentId studentId read (⟨.parentSide parent student, some read⟩ :: seen) :=
  fun parent' student' hparent' hstudent' => by
    cases hparent.symm.trans hparent'
    cases hstudent.symm.trans hstudent'
    exact List.mem_cons_self ..

theorem ReadAt.later {later : Readings Key Row} (h : ReadAt parentId studentId read seen) (hlater : seen ⊆ later) :
    ReadAt parentId studentId read later := fun parent student hparent hstudent =>
  hlater (h parent student hparent hstudent)

/-- A pair is settled on a link that was read under its key. -/
theorem decides_settledPair_bind {f : Option Link → Action α} {T : Readings Key Row → List (Write Key Row) → Prop}
    (hnone : ∀ later, (f none).run.Decides T (fun _ _ => True) later)
    (hsome : ∀ read later, ReadAt parentId studentId read later →
      (f (some read)).run.Decides T (fun _ _ => True) later) :
    (settledPair parentId studentId >>= f).run.Decides T (fun _ _ => True) seen := by
  refine Handler.decides_bind (Handler.decides_bind (decides_getParentSideLink ?_ fun _ _ => trivial))
  intro parent student forward hparent hstudent
  refine Handler.decides_readOnly_bind (readOnly_getStudentSideLink _ _) (fun reverse later hlater => ?_)
    fun _ _ => trivial
  cases forward with
  | none => exact hnone later
  | some read =>
      cases reverse with
      | none => exact hnone later
      | some mirror =>
          dsimp only
          split
          · exact hnone later
          · exact hsome read later ((readAt_self hparent hstudent).later hlater)

theorem decides_assignLink (r : AssignLink) :
    (assignLink r).run.Decides (Submitted wiring (.assignLink r)) (fun _ _ => True) seen := by
  have hcreate : ∀ (grounds : Grounds) (later : Readings Key Row),
      (createLink r.parentId r.studentId .active .admin r.actorId r.now r.relationship grounds).run.Decides
        (Submitted wiring (.assignLink r)) (fun _ _ => True) later := fun grounds later =>
    decides_createLink rfl (fun _ => ⟨r, rfl⟩) fun h => by cases h
  refine Handler.decides_readOnly_bind (readOnly_account _ _) (fun _ later _ => ?_) fun _ _ => trivial
  refine Handler.decides_readOnly_bind (readOnly_account _ _) (fun _ later _ => ?_) fun _ _ => trivial
  refine decides_settledPair_bind (fun later => hcreate _ later) fun read later hread => ?_
  dsimp only
  split
  · exact decides_reclaimLink hread rfl rfl (fun _ => ⟨r, rfl⟩) fun h => by cases h
  · exact hcreate _ later

theorem decides_requestBetween (r : RequestLink) (initiatorRole : Initiator) :
    (requestBetween wiring r parentId studentId initiatorRole).run.Decides
      (Submitted wiring (.requestLink r)) (fun _ _ => True) seen := by
  refine Handler.decides_readOnly_bind (readOnly_account _ _) (fun _ later _ => ?_) fun _ _ => trivial
  refine Handler.decides_readOnly_bind (readOnly_account _ _) (fun _ later _ => ?_) fun _ _ => trivial
  refine Handler.decides_of_bind (fun _ _ => ?_) fun _ => trivial
  refine decides_settledPair_bind (fun later => ?_) fun read later hread => ?_
  · exact decides_createLink rfl (fun h => by cases h) fun _ => ⟨r, rfl, rfl⟩
  · refine Handler.decides_of_bind (fun _ hok => ?_) fun _ => trivial
    exact decides_reclaimLink hread rfl rfl (fun h => by cases h) fun _ => ⟨r, rfl, rfl, hok⟩

theorem decides_requestLink (r : RequestLink) :
    (requestLink wiring r).run.Decides (Submitted wiring (.requestLink r)) (fun _ _ => True) seen := by
  refine Handler.decides_readOnly_bind (readOnly_fetch _) (fun requester later _ => ?_) fun _ _ => trivial
  cases requester with
  | none => trivial
  | some requester =>
      dsimp only
      split
      · trivial
      split
      · trivial
      refine Handler.decides_of_bind (fun target _ => ?_) fun _ => trivial
      split
      · exact decides_requestBetween r _
      · exact decides_requestBetween r _

/-- The request that a party answers was read, and is live. -/
theorem decides_pendingLink_bind {at_ : Instant} {f : Link → Action α}
    {T : Readings Key Row → List (Write Key Row) → Prop}
    (h : ∀ read later, ReadAt parentId studentId read later → read.status = .pending →
      pendingExpired read at_ = false → (f read).run.Decides T (fun _ _ => True) later) :
    (pendingLink parentId studentId at_ >>= f).run.Decides T (fun _ _ => True) seen := by
  refine Handler.decides_bind (Handler.decides_bind (decides_getParentSideLink ?_ fun _ _ => trivial))
  intro parent student row hparent hstudent
  cases row with
  | none => trivial
  | some read =>
      dsimp only
      split
      · trivial
      rename_i hpending
      split
      · trivial
      rename_i hlive
      exact h read _ (readAt_self hparent hstudent) (not_not.mp hpending) (Bool.not_eq_true _ ▸ hlive)

theorem capable_of_ok {parent student : Option Profile} {at_ : Instant} {link : Option Link} {u : Unit}
    (h : refuseSelfServiceWhenMinor wiring parent student at_ = .ok u) :
    Grounds.Capable wiring ⟨link, parent, student⟩ at_ := by
  unfold refuseSelfServiceWhenMinor at h
  split at h
  · cases h
  · rename_i hadult
    simpa [Grounds.Capable, not_or] using hadult

theorem decides_confirmLink (r : AnswerLink) :
    (confirmLink wiring r).run.Decides (Submitted wiring (.confirmLink r)) (fun _ _ => True) seen := by
  refine decides_pendingLink_bind fun read later hread hpending hlive => ?_
  refine Handler.decides_of_bind (fun _ hmay => ?_) fun _ => trivial
  refine Handler.decides_readOnly_bind (readOnly_fetch _) (fun parent second hsecond => ?_) fun _ _ => trivial
  refine Handler.decides_readOnly_bind (readOnly_fetch _) (fun student third hthird => ?_) fun _ _ => trivial
  refine Handler.decides_of_bind (fun _ hcapable => ?_) fun _ => trivial
  exact decides_transitionLink ((hread.later hsecond).later hthird) hpending rfl rfl (by decide)
    fun _ => ⟨r, rfl, hmay, hlive, capable_of_ok hcapable⟩

theorem decides_rejectLink (r : AnswerLink) :
    (rejectLink r).run.Decides (Submitted wiring (.rejectLink r)) (fun _ _ => True) seen := by
  refine decides_pendingLink_bind fun read later hread hpending hlive => ?_
  refine Handler.decides_of_bind (fun _ _ => ?_) fun _ => trivial
  exact decides_transitionLink hread hpending rfl rfl (by decide) fun h => by cases h

theorem decides_closeLink {parentSide studentSide : Option Link} {updatedBy : String} {now : Instant}
    (hread : ∀ read, parentSide = some read → ReadAt parentId studentId read seen) (hnow : c.now = some now) :
    (closeLink parentId studentId parentSide studentSide updatedBy now).run.Decides (Submitted wiring c)
      (fun _ _ => True) seen := by
  refine Handler.decides_of_bind (fun parent hparent => ?_) fun _ => trivial
  refine Handler.decides_of_bind (fun student hstudent => ?_) fun _ => trivial
  cases hstored : parentSide <|> studentSide with
  | none => trivial
  | some stored =>
      dsimp only
      split
      · trivial
      rename_i hadvances
      refine Handler.decides_of_bind (fun updated _ => ?_) fun _ => trivial
      refine Handler.decides_submit_bind (.pair (.inl rfl)
        ⟨hnow, fun link hlink _ _ => ?_, fun h => ?_, fun h => ?_⟩) fun done => ?_
      · cases parentSide with
        | none => cases hlink
        | some read =>
            cases hstored
            have hsame : stored.SameStamp link := of_decide_eq_true hlink
            refine ⟨stored, rfl, hread stored rfl parent student hparent hstudent, hsame, .inl fun heq => ?_⟩
            exact hadvances (.inl (decide_eq_true (hsame.2.symm.trans heq.symm)))
      · cases h
      · cases h
      · cases done <;> trivial

theorem decides_revoke (r : AnswerLink) :
    (revoke r).run.Decides (Submitted wiring (.closeLink r)) (fun _ _ => True) seen := by
  unfold revoke
  split
  · trivial
  refine Handler.decides_bind (decides_getParentSideLink ?_ fun _ _ => trivial)
  intro parent student forward hparent hstudent
  refine Handler.decides_readOnly_bind (readOnly_getStudentSideLink _ _) (fun reverse later hlater => ?_)
    fun _ _ => trivial
  dsimp only
  split
  · refine Handler.decides_map (decides_closeLink (fun read hside => ?_) rfl)
    obtain ⟨hforward, -⟩ := Option.filter_eq_some_iff.mp hside
    subst hforward
    exact (readAt_self hparent hstudent).later hlater
  · trivial

theorem decides_service (c : Call) :
    ((service wiring).body c).Decides (Submitted wiring c) (fun _ _ => True) [] := by
  cases c with
  | assignLink r => exact Handler.decides_map (decides_assignLink r)
  | requestLink r => exact Handler.decides_map (decides_requestLink r)
  | confirmLink r => exact Handler.decides_map (decides_confirmLink r)
  | rejectLink r => exact Handler.decides_map (decides_rejectLink r)
  | closeLink r => exact decides_revoke r
  | setProfile user profile => exact Handler.decides_submit_bind (.profile user profile []) fun _ => trivial
  | setFence user fence => exact Handler.decides_submit_bind (.fence user fence []) fun _ => trivial

end

/-! ## The links of a pair advance -/

/-- A later link of a pair: its stamp is later, or it settles the request. -/
def Precedes : Option Link → Option Link → Prop
  | none, some _ => True
  | some a, some b => (a.linkUpdatedAt : ℤ) < b.linkUpdatedAt ∨
      ((a.linkUpdatedAt : ℤ) = b.linkUpdatedAt ∧ a.status = .pending ∧ b.status ≠ .pending)
  | _, none => False

theorem Precedes.trans {a b c : Option Link} (hab : Precedes a b) (hbc : Precedes b c) : Precedes a c := by
  cases a <;> cases b <;> cases c <;> simp_all only [Precedes]
  rcases hab with hab | ⟨hab, hpending, hsettled⟩
  · rcases hbc with hbc | ⟨hbc, -, -⟩
    · exact .inl (hab.trans hbc)
    · exact .inl (hbc ▸ hab)
  · rcases hbc with hbc | ⟨hbc, hpending', -⟩
    · exact .inl (hab ▸ hbc)
    · exact absurd hpending' hsettled

/-- A link of the same status and stamp does not precede. -/
theorem Precedes.not_sameStamp {read link : Link} (h : Precedes (some read) (some link)) : ¬ read.SameStamp link := by
  rintro ⟨hstatus, hstamp⟩
  rcases h with h | ⟨-, hpending, hsettled⟩
  · exact absurd hstamp h.ne'
  · exact hsettled (hstatus.trans hpending)

theorem Precedes.irrefl (a : Option Link) : ¬ Precedes a a := by
  intro h
  cases a with
  | none => exact h
  | some link => exact h.not_sameStamp ⟨rfl, rfl⟩

/-- The links that the writes of a pair were decided on. -/
def decidedOn (t : Table Key Row) (parent student : String) : List (Option Link) :=
  ((t.row (.grounds parent student) : Option (List Grounds)).getD []).map Grounds.link

/-- Both sides of every pair store the same link, and it is about the pair. -/
structure Agrees (t : Table Key Row) : Prop where
  sides : ∀ parent student, t.row (.studentSide student parent) = t.row (.parentSide parent student)
  about : ∀ parent student (link : Link), t.row (.parentSide parent student) = some link →
    link.parentId = parent ∧ link.studentId = student

/-- No two writes of a pair were decided on one link. -/
structure Advances (t : Table Key Row) : Prop where
  nodup : ∀ parent student, (decidedOn t parent student).Nodup
  precedes : ∀ parent student, ∀ link ∈ decidedOn t parent student, Precedes link (t.row (.parentSide parent student))

/-- What is asked of a write: the stored link has the stamp of the one that was read,
and the call is not late. -/
structure Timely (c : Call) (ops : List (Write Key Row)) (t : Table Key Row) : Prop where
  stamp : ∀ parent student (grounds : Grounds), (t.apply ops).row (.grounds parent student) =
      some (grounds :: (t.row (.grounds parent student) : Option (List Grounds)).getD []) →
    (t.row (.parentSide parent student) : Option Link).map Link.linkUpdatedAt = grounds.link.map Link.linkUpdatedAt
  inTime : ∀ parent student (link : Link), t.row (.parentSide parent student) = some link →
    (t.apply ops).row (.parentSide parent student) ≠ some link →
    ∀ now ∈ c.now, link.linkUpdatedAt ≤ now

abbrev Entry := Commit Key Row Call

section

variable {c : Call} {seen : Readings Key Row} {ops : List (Write Key Row)} {t u : Table Key Row} {body : Link}
  {grounds : Grounds} {parentSide studentSide : Option Link → Bool} {history older : List Entry} {e : Entry}

theorem PairWritten.agrees (h : PairWritten t u body grounds) (ht : Agrees t) : Agrees u where
  sides parent student := by
    by_cases heq : parent = body.parentId ∧ student = body.studentId
    · obtain ⟨rfl, rfl⟩ := heq
      exact h.studentSide.trans h.parentSide.symm
    · obtain ⟨hparent, hstudent, -⟩ := h.others parent student heq
      rw [hparent, hstudent]
      exact ht.sides parent student
  about parent student link hlink := by
    by_cases heq : parent = body.parentId ∧ student = body.studentId
    · obtain ⟨rfl, rfl⟩ := heq
      cases h.parentSide.symm.trans hlink
      exact ⟨rfl, rfl⟩
    · rw [(h.others parent student heq).1] at hlink
      exact ht.about parent student link hlink

theorem PairWritten.decidedOn_self (h : PairWritten t u body grounds) :
    decidedOn u body.parentId body.studentId = grounds.link :: decidedOn t body.parentId body.studentId := by
  unfold decidedOn
  rw [h.grounds]
  rfl

theorem PairWritten.decidedOn_others (h : PairWritten t u body grounds) {parent student : String}
    (hne : ¬ (parent = body.parentId ∧ student = body.studentId)) :
    decidedOn u parent student = decidedOn t parent student := by
  unfold decidedOn
  rw [(h.others parent student hne).2.2]

/-- Where the write is decided on the stored link and goes beyond it, no other one was
decided on that link. -/
theorem PairWritten.advances (h : PairWritten t u body grounds) (ht : Advances t)
    (hlink : grounds.link = t.row (.parentSide body.parentId body.studentId))
    (hbody : Precedes grounds.link (some body)) : Advances u where
  nodup parent student := by
    by_cases heq : parent = body.parentId ∧ student = body.studentId
    · obtain ⟨rfl, rfl⟩ := heq
      rw [h.decidedOn_self, List.nodup_cons]
      refine ⟨fun hmem => Precedes.irrefl grounds.link ?_, ht.nodup _ _⟩
      have hprecedes := ht.precedes _ _ _ hmem
      rwa [← hlink] at hprecedes
    · rw [h.decidedOn_others heq]
      exact ht.nodup parent student
  precedes parent student link hmem := by
    by_cases heq : parent = body.parentId ∧ student = body.studentId
    · obtain ⟨rfl, rfl⟩ := heq
      rw [h.decidedOn_self] at hmem
      rw [h.parentSide]
      rcases List.mem_cons.mp hmem with rfl | hmem
      · exact hbody
      · have hprecedes := ht.precedes _ _ _ hmem
        rw [← hlink] at hprecedes
        exact hprecedes.trans hbody
    · rw [h.decidedOn_others heq] at hmem
      rw [(h.others parent student heq).1]
      exact ht.precedes parent student link hmem

/-- What holds of a pair at any time of a run. -/
structure Progress (t : Table Key Row) (history : List Entry) : Prop where
  agrees : Agrees (tableAfter t history)
  advances : Advances (tableAfter t history)
  later : ∀ earlier, earlier <:+ history → ∀ parent student,
    (tableAfter t earlier).row (.parentSide parent student) =
        (tableAfter t history).row (.parentSide parent student) ∨
      Precedes ((tableAfter t earlier).row (.parentSide parent student))
        ((tableAfter t history).row (.parentSide parent student))

/-- A timely write is decided on the stored link itself, and goes beyond it. -/
theorem Progress.judged (hprogress : Progress t older) (hjudged : Judged wiring c seen body grounds parentSide studentSide)
    (hops : WritesPair body grounds parentSide studentSide ops) (hseen : ∀ x ∈ seen, WasStored t older x)
    (htimely : Timely c ops (tableAfter t older)) (hadmits : (tableAfter t older).Admits ops) :
    grounds.link = (tableAfter t older).row (.parentSide body.parentId body.studentId) ∧
      Precedes grounds.link (some body) := by
  obtain ⟨hparent, hstudent⟩ := hops.admits hadmits
  have hwritten := hops.written (t := tableAfter t older)
  have hstamp := htimely.stamp _ _ grounds hwritten.grounds
  rw [hprogress.agrees.sides] at hstudent
  cases hrow : ((tableAfter t older).row (.parentSide body.parentId body.studentId) : Option Link) with
  | none =>
      rw [hrow] at hstamp
      have hlink : grounds.link = none := by simpa using hstamp.symm
      rw [hlink]
      exact ⟨rfl, trivial⟩
  | some link =>
      rw [hrow] at hparent hstudent hstamp
      obtain ⟨read, hread, hmem, hsame, hadvance⟩ := hjudged.stored link hparent hstudent hstamp
      obtain ⟨earlier, hearlier, hold⟩ := hseen _ hmem
      have hlater := hprogress.later earlier hearlier body.parentId body.studentId
      rw [hold, hrow] at hlater
      rcases hlater with heq | hprecedes
      · cases heq
        refine ⟨hread, ?_⟩
        rw [hread]
        have hne : ((tableAfter t older).apply ops).row (.parentSide body.parentId body.studentId) ≠
            (some link : Option Link) := by
          rw [hwritten.parentSide]
          rintro heq
          cases heq
          rcases hadvance with hadvance | ⟨hpending, hsettled⟩
          · exact hadvance rfl
          · exact hsettled hpending
        have hle := htimely.inTime _ _ link hrow hne _ hjudged.now
        rcases lt_or_eq_of_le hle with hlt | heq
        · exact .inl hlt
        · rcases hadvance with hadvance | ⟨hpending, hsettled⟩
          · exact absurd heq.symm hadvance
          · exact .inr ⟨heq, hpending, hsettled⟩
      · exact absurd hsame hprecedes.not_sameStamp

/-- A commit that writes no pair. -/
theorem Progress.unchanged (hprogress : Progress t older) (hbefore : e.before = tableAfter t older)
    (h : ∀ parent student, e.after.row (.parentSide parent student) = e.before.row (.parentSide parent student) ∧
      e.after.row (.studentSide student parent) = e.before.row (.studentSide student parent) ∧
      e.after.row (.grounds parent student) = e.before.row (.grounds parent student)) :
    Progress t (e :: older) := by
  rw [hbefore] at h
  have hdecided : ∀ parent student, decidedOn e.after parent student =
      decidedOn (tableAfter t older) parent student := fun parent student => by
    unfold decidedOn
    rw [(h parent student).2.2]
  refine ⟨⟨fun parent student => ?_, fun parent student link hlink => ?_⟩,
    ⟨fun parent student => ?_, fun parent student link hlink => ?_⟩, fun earlier hearlier parent student => ?_⟩
  · exact ((h parent student).2.1.trans (hprogress.agrees.sides parent student)).trans (h parent student).1.symm
  · exact hprogress.agrees.about parent student link ((h parent student).1.symm.trans hlink)
  · exact (hdecided parent student).symm ▸ hprogress.advances.nodup parent student
  · have hmem : link ∈ decidedOn (tableAfter t older) parent student := hdecided parent student ▸ hlink
    exact (h parent student).1.symm ▸ hprogress.advances.precedes parent student link hmem
  · rcases List.suffix_cons_iff.mp hearlier with rfl | hearlier
    · exact .inl rfl
    · exact (h parent student).1.symm ▸ hprogress.later earlier hearlier parent student

/-- A timely run is in progress at any time. -/
theorem progress (ht : Agrees t) (hnone : ∀ parent student, t.row (.grounds parent student) = none)
    (h : Decided (Submitted wiring) Timely t history) : Progress t history := by
  induction history with
  | nil =>
      refine ⟨ht, ⟨fun parent student => ?_, fun parent student link hmem => ?_⟩, fun earlier hearlier _ _ => ?_⟩
      · simp [decidedOn, tableAfter, hnone]
      · simp [decidedOn, tableAfter, hnone] at hmem
      · rw [List.suffix_nil.mp hearlier]
        exact .inl rfl
  | cons e older ih =>
      have hprogress := ih (h.earlier (List.suffix_cons _ _))
      obtain ⟨hbefore, seen, ops, hsubmitted, hseen, htimely, hadmits, hafter⟩ := h e older List.suffix_rfl
      have hother : ∀ key (row : Row key), e.after = e.before.apply [.put key row fun _ => true] →
          ∀ other, other ≠ key → e.after.row other = e.before.row other :=
        fun key row hafter other hne => hafter ▸ Table.row_set_of_ne _ _ hne
      generalize hcall : e.call = c at hsubmitted htimely
      cases hsubmitted with
      | profile user profile =>
          exact hprogress.unchanged hbefore fun parent student =>
            ⟨hother _ _ hafter _ (by simp), hother _ _ hafter _ (by simp), hother _ _ hafter _ (by simp)⟩
      | fence user fence =>
          exact hprogress.unchanged hbefore fun parent student =>
            ⟨hother _ _ hafter _ (by simp), hother _ _ hafter _ (by simp), hother _ _ hafter _ (by simp)⟩
      | @pair _ _ body grounds _ _ _ hops hjudged =>
          rw [hbefore] at htimely hadmits hafter
          obtain ⟨hlink, hbody⟩ := hprogress.judged hjudged hops hseen htimely hadmits
          have hwritten := hops.written (t := tableAfter t older)
          rw [← hafter] at hwritten
          refine ⟨hwritten.agrees hprogress.agrees, hwritten.advances hprogress.advances hlink hbody,
            fun earlier hearlier parent student => ?_⟩
          rcases List.suffix_cons_iff.mp hearlier with rfl | hearlier
          · exact .inl rfl
          have hlater := hprogress.later earlier hearlier parent student
          by_cases heq : parent = body.parentId ∧ student = body.studentId
          · obtain ⟨rfl, rfl⟩ := heq
            right
            change Precedes _ (e.after.row (.parentSide body.parentId body.studentId))
            rw [hwritten.parentSide]
            rcases hlater with hsame | hprecedes
            · rw [hsame, ← hlink]
              exact hbody
            · exact hprecedes.trans (hlink ▸ hbody)
          · change _ = e.after.row (.parentSide parent student) ∨ Precedes _ (e.after.row (.parentSide parent student))
            rw [(hwritten.others parent student heq).1]
            exact hlater

end

/-! ## Every run -/

/-- A link that becomes active by confirmation: the request that is stored when the
confirmation commits is live, was not created by the party that confirms it, and no
minor is a party to it. -/
structure Confirms (wiring : Wiring) (e : Entry) (parent student : String) (r : AnswerLink) (request : Link) :
    Prop where
  call : e.call = .confirmLink r
  stored : e.before.row (.parentSide parent student) = some request
  pending : request.status = .pending
  other : (request.initiatorRole = .parent ∧ r.actorId = student) ∨
    (request.initiatorRole = .student ∧ r.actorId = parent)
  notOwn : r.actorId ≠ request.createdBy
  live : r.now - request.linkUpdatedAt < PENDING_REQUEST_TTL
  capable : ∃ grounds : Grounds, e.after.row (.grounds parent student) =
    some (grounds :: (e.before.row (.grounds parent student) : Option (List Grounds)).getD []) ∧
      grounds.Capable wiring r.now

/-- Where a request may be stored: nothing stands there that is active, live or within
its cool-down. -/
structure Requests (e : Entry) (parent student : String) (r : RequestLink) : Prop where
  call : e.call = .requestLink r
  free : ∀ link : Link, e.before.row (.parentSide parent student) = some link → link.status ≠ .active ∧
    (link.status = .pending → PENDING_REQUEST_TTL ≤ r.now - link.linkUpdatedAt) ∧
    (link.status = .rejected → link.linkUpdatedAt + REJECTED_COOLDOWN ≤ r.now)

theorem mayAnswer_ok {link : Link} {actorId : String} {u : Unit} (h : mayAnswer link actorId = .ok u) :
    ((link.initiatorRole = .parent ∧ actorId = link.studentId) ∨
      (link.initiatorRole = .student ∧ actorId = link.parentId)) ∧ actorId ≠ link.createdBy := by
  unfold mayAnswer confirmerSide at h
  cases hrole : link.initiatorRole with
  | admin =>
      rw [hrole] at h
      cases h
  | parent =>
      rw [hrole] at h
      by_cases hrefused : actorId ≠ link.studentId ∨ actorId = link.createdBy
      · simp [Except.bind, hrefused] at h
      · simpa [not_or] using hrefused
  | student =>
      rw [hrole] at h
      by_cases hrefused : actorId ≠ link.parentId ∨ actorId = link.createdBy
      · simp [Except.bind, hrefused] at h
      · simpa [not_or] using hrefused

theorem free_of_ok {link : Link} {at_ : Instant} {u : Unit} (h : refuseUnlessReclaimable link at_ = .ok u) :
    link.status ≠ .active ∧ (link.status = .pending → PENDING_REQUEST_TTL ≤ at_ - link.linkUpdatedAt) ∧
      (link.status = .rejected → link.linkUpdatedAt + REJECTED_COOLDOWN ≤ at_) := by
  unfold refuseUnlessReclaimable at h
  cases hstatus : link.status with
  | active =>
      rw [hstatus] at h
      cases h
  | pending =>
      rw [hstatus] at h
      refine ⟨by simp, fun _ => ?_, by simp⟩
      by_contra hlive
      simp [pendingExpired, hlive] at h
  | rejected =>
      rw [hstatus] at h
      refine ⟨by simp, by simp, fun _ => ?_⟩
      by_contra hcool
      have hremaining : 0 < cooldownRemaining link at_ :=
        lt_of_lt_of_le (Int.sub_pos_of_lt (not_le.mp hcool)) (le_max_right _ _)
      simp [hremaining] at h

section

variable {t : Table Key Row} {history older : List Entry} {e : Entry} {parent student : String} {link : Link}

/-- The write that leaves a link where it did not stand. -/
theorem Decided.written (h : Decided (Submitted wiring) Timely t history) (hsuffix : e :: older <:+ history)
    (hafter : e.after.row (.parentSide parent student) = some link)
    (hchanged : e.before.row (.parentSide parent student) ≠ some link) :
    link.parentId = parent ∧ link.studentId = student ∧ ∃ seen grounds parentSide studentSide ops,
      Judged wiring e.call seen link grounds parentSide studentSide ∧
      WritesPair link grounds parentSide studentSide ops ∧ (∀ x ∈ seen, WasStored t older x) ∧
      Timely e.call ops (tableAfter t older) ∧ (tableAfter t older).Admits ops ∧ e.before = tableAfter t older ∧
      e.after = (tableAfter t older).apply ops := by
  obtain ⟨hbefore, seen, ops, hsubmitted, hseen, htimely, hadmits, happly⟩ := h e older hsuffix
  rw [hbefore] at htimely hadmits happly hchanged
  generalize hcall : e.call = c at hsubmitted htimely ⊢
  cases hsubmitted with
  | profile user profile =>
      refine absurd ?_ hchanged
      rw [← hafter, happly]
      exact (Table.row_set_of_ne _ _ (by simp [Write.put])).symm
  | fence user fence =>
      refine absurd ?_ hchanged
      rw [← hafter, happly]
      exact (Table.row_set_of_ne _ _ (by simp [Write.put])).symm
  | @pair _ _ body grounds parentSide studentSide _ hops hjudged =>
      have hwritten := hops.written (t := tableAfter t older)
      rw [← happly] at hwritten
      by_cases heq : parent = body.parentId ∧ student = body.studentId
      · obtain ⟨rfl, rfl⟩ := heq
        cases hwritten.parentSide.symm.trans hafter
        exact ⟨rfl, rfl, seen, grounds, parentSide, studentSide, ops, hjudged, hops, hseen, htimely, hadmits,
          hbefore, happly⟩
      · rw [(hwritten.others parent student heq).1] at hafter
        exact absurd hafter hchanged

theorem Progress.confirms {c : Call} {seen : Readings Key Row} {grounds : Grounds}
    {parentSide studentSide : Option Link → Bool} {ops : List (Write Key Row)} (hprogress : Progress t older)
    (hjudged : Judged wiring c seen link grounds parentSide studentSide)
    (hops : WritesPair link grounds parentSide studentSide ops) (hseen : ∀ x ∈ seen, WasStored t older x)
    (htimely : Timely c ops (tableAfter t older)) (hadmits : (tableAfter t older).Admits ops)
    (hactive : link.status = .active) (hcall : e.call = c) (hbefore : e.before = tableAfter t older)
    (hafter : e.after = (tableAfter t older).apply ops) :
    (∃ r, c = .assignLink r) ∨ ∃ r request, Confirms wiring e link.parentId link.studentId r request := by
  obtain ⟨hlink, -⟩ := hprogress.judged hjudged hops hseen htimely hadmits
  rcases hjudged.active hactive with hassign | ⟨r, read, rfl, hread, hpending, hmay, hlive, hcapable⟩
  · exact .inl hassign
  · right
    have hstored : (tableAfter t older).row (.parentSide link.parentId link.studentId) = some read :=
      hlink.symm.trans hread
    obtain ⟨hparent, hstudent⟩ := hprogress.agrees.about _ _ read hstored
    obtain ⟨hother, hnotOwn⟩ := mayAnswer_ok hmay
    rw [hparent, hstudent] at hother
    refine ⟨r, read, hcall, hbefore ▸ hstored, hpending, hother, hnotOwn, ?_, grounds, ?_, hcapable⟩
    · have hlive : ¬ PENDING_REQUEST_TTL ≤ r.now - read.linkUpdatedAt := of_decide_eq_false hlive
      exact not_le.mp hlive
    · rw [hbefore, hafter]
      exact hops.written.grounds

end

/-- Both sides of a pair store the same link. While every write finds the stamp that
was read and is not late, a link becomes active by an administrator or by the party
that did not create the stored request, a request is stored where nothing stands in
its way, and no two writes are decided on one link. -/
theorem parent_links {t : Table Key Row} {s : State Key Row Call (Except Raised (Option Link))} (ht : Agrees t)
    (hnone : ∀ parent student, t.row (.grounds parent student) = none)
    (h : StepsMeeting (service wiring) (Committing Timely) (.initial t) s) :
    (∀ parent student, s.table.row (.studentSide student parent) = s.table.row (.parentSide parent student)) ∧
    (∀ e ∈ s.history, ∀ parent student (link : Link), e.after.row (.parentSide parent student) = some link →
      e.before.row (.parentSide parent student) ≠ some link →
      (link.status = .active → (∃ r, e.call = .assignLink r) ∨
        ∃ r request, Confirms wiring e parent student r request) ∧
      (link.status = .pending → ∃ r, Requests e parent student r)) ∧
    ∀ parent student, (decidedOn s.table parent student).Nodup := by
  obtain ⟨hdecided, htable⟩ := h.decided decides_service fun _ _ heq => heq
  have hfinal := progress ht hnone hdecided
  rw [htable]
  refine ⟨hfinal.agrees.sides, fun e he parent student link hafter hchanged => ?_, hfinal.advances.nodup⟩
  obtain ⟨newer, older, heq⟩ := List.append_of_mem he
  have hsuffix : e :: older <:+ s.history := ⟨newer, heq.symm⟩
  have hprogress := progress ht hnone (hdecided.earlier ((List.suffix_cons _ _).trans hsuffix))
  obtain ⟨rfl, rfl, seen, grounds, parentSide, studentSide, ops, hjudged, hops, hseen, htimely, hadmits, hbefore,
    happly⟩ := Decided.written hdecided hsuffix hafter hchanged
  refine ⟨fun hactive => ?_, fun hpending => ?_⟩
  · exact hprogress.confirms hjudged hops hseen htimely hadmits hactive rfl hbefore happly
  · obtain ⟨r, hcall, -, hok⟩ := hjudged.pending hpending
    refine ⟨r, hcall, fun stored hstored => ?_⟩
    rw [hbefore] at hstored
    have hparent := (hops.admits hadmits).1
    rw [hstored] at hparent
    exact free_of_ok (hok stored hparent)

/-! ## A request that is replaced -/

/-- What a write must be to be timely, as it can be evaluated. -/
def timelyWrite (c : Call) (t : Table Key Row) : Write Key Row → Bool
  | ⟨.grounds parent student, _, action⟩ =>
      match action (t.row (.grounds parent student)) with
      | some (grounds :: _) =>
          (t.row (.parentSide parent student) : Option Link).map Link.linkUpdatedAt =
            grounds.link.map Link.linkUpdatedAt
      | _ => true
  | ⟨.parentSide parent student, _, _⟩ =>
      (t.row (.parentSide parent student) : Option Link).all fun link => c.now.all (link.linkUpdatedAt ≤ ·)
  | _ => true

theorem timely_of_writes {c : Call} {ops : List (Write Key Row)} {t : Table Key Row} (hadmits : t.Admits ops)
    (h : (ops.all (timelyWrite c t)) = true) : Timely c ops t where
  stamp parent student grounds hgrounds := by
    by_cases hmem : ∃ w ∈ ops, w.key = .grounds parent student
    · obtain ⟨⟨key, condition, action⟩, hw, rfl⟩ := hmem
      have hrow := Table.row_apply_of_mem t hadmits.1 hw
      have hwrite := List.all_eq_true.mp h _ hw
      have haction : action (t.row (.grounds parent student)) = some (grounds ::
          (t.row (.grounds parent student) : Option (List Grounds)).getD []) := hrow.symm.trans hgrounds
      simp only [timelyWrite, haction] at hwrite
      exact of_decide_eq_true hwrite
    · have hsame := Table.row_apply_of_notMem t ops (.grounds parent student)
        fun w hw heq => hmem ⟨w, hw, heq.symm⟩
      rw [hsame] at hgrounds
      rw [hgrounds] at hgrounds
      simp at hgrounds
  inTime parent student link hlink hchanged now hnow := by
    by_cases hmem : ∃ w ∈ ops, w.key = .parentSide parent student
    · obtain ⟨⟨key, condition, action⟩, hw, rfl⟩ := hmem
      have hwrite := List.all_eq_true.mp h _ hw
      simp only [timelyWrite, hlink, Option.all_some] at hwrite
      rw [Option.mem_def.mp hnow] at hwrite
      exact of_decide_eq_true hwrite
    · have hsame := Table.row_apply_of_notMem t ops (.parentSide parent student)
        fun w hw heq => hmem ⟨w, hw, heq.symm⟩
      exact absurd (hsame.trans hlink) hchanged

namespace LinkSample

def adults : Wiring := ⟨18, none⟩

def profile (user role dateOfBirth : String) : Profile where
  userId := user
  role := role
  accountStatus := some "active"
  status := none
  version := none
  dateOfBirth := some dateOfBirth

/-- A parent and an adult student. -/
def accounts : Table Key Row := Table.empty.apply
  [.put (.profile "parent") (profile "parent" "parent" "1970-05-01") fun _ => true,
    .put (.profile "student") (profile "student" "student" "2000-02-29") fun _ => true,
    .put (.accountFence "parent") ⟨"active", some 1⟩ fun _ => true,
    .put (.accountFence "student") ⟨"active", some 1⟩ fun _ => true]

abbrev Run := State Key Row Call (Except Raised (Option Link))

def asked : ℕ := 1700000000000000

/-- One second before the request expires, and one second after. -/
def answered : ℕ := asked + 1209599000000

def replaced : ℕ := asked + 1209601000000

def byParent : RequestLink := ⟨"parent", some "student", none, "child", asked⟩

def byStudent : RequestLink := ⟨"student", some "parent", none, "child", replaced⟩

def confirmation : AnswerLink := ⟨"parent", "student", "student", answered⟩

def at_ (s : Run) (clock : ℕ) : Run := { s with clock }

def requested : Run := (at_ (.initial accounts) asked).solo (service adults) (.requestLink byParent) []

/-- The student confirms the parent's request. -/
def confirmed : Run := (at_ requested answered).solo (service adults) (.confirmLink confirmation) []

/-- The student has read the parent's request, and has written nothing yet. -/
def reading : Run := ((at_ requested answered).launch (service adults) (.confirmLink confirmation)).advance 1 7

/-- The request has expired, and the student puts one in its place. -/
def proposed : Run := (at_ reading replaced).solo (service adults) (.requestLink byStudent) []

/-- The confirmation of the first request commits on the second one. -/
def selfConfirmed : Run := proposed.finish 1 []

/-- Who confirms, if the call is a confirmation. -/
def confirmer : Call → Option String
  | .confirmLink r => some r.actorId
  | _ => none

theorem clock_requested : requested.clock = asked := by decide

theorem requested_reachable : Reachable (service adults) accounts requested :=
  (Relation.ReflTransGen.single (Step.tick (.initial accounts) asked (Nat.zero_le _))).trans
    (State.solo_steps trivial trivial (by simp [service, Call.now, byParent]) [])

theorem selfConfirmed_reachable : Reachable (service adults) accounts selfConfirmed := by
  have hanswered : Step (service adults) requested (at_ requested answered) :=
    .tick requested answered (by rw [clock_requested]; decide)
  have hclock : reading.clock = answered := by decide +kernel
  have hreplaced : Step (service adults) reading (at_ reading replaced) :=
    .tick reading replaced (by rw [hclock]; decide)
  have hreading : Steps (service adults) requested reading :=
    ((Relation.ReflTransGen.single hanswered).trans
      (State.launch_steps (by simp [service, Call.now, confirmation, at_]))).trans (State.advance_steps _ _ _)
  have hproposed : Steps (service adults) reading proposed :=
    (Relation.ReflTransGen.single hreplaced).trans
      (State.solo_steps trivial trivial (by simp [service, Call.now, byStudent, at_]) [])
  exact ((requested_reachable.trans hreading).trans hproposed).trans (State.finish_steps trivial trivial _ _ _)

theorem confirmed_meets :
    StepsMeeting (service adults) (Committing Timely) (.initial accounts) confirmed := by
  have hrequested : StepsMeeting (service adults) (Committing Timely) (.initial accounts) requested := by
    refine StepsMeeting.solo (StepsMeeting.quiet .refl (.tick (.initial accounts) asked (Nat.zero_le _)) rfl)
      (by simp [service, Call.now, byParent, at_]) ?_
    exact Program.aloneMeets_of_checks (fun _ _ => timely_of_writes) (by decide +kernel)
  refine StepsMeeting.solo (StepsMeeting.quiet hrequested (.tick requested answered ?_) rfl)
    (by simp [service, Call.now, confirmation, at_]) ?_
  · rw [clock_requested]
    decide
  · exact Program.aloneMeets_of_checks (fun _ _ => timely_of_writes) (by decide +kernel)

end LinkSample

theorem parent_links_sample : ∃ e ∈ LinkSample.confirmed.history, ∃ r request,
    Confirms LinkSample.adults e "parent" "student" r request := by
  have hlast : (LinkSample.confirmed.history.head?.map fun e => (LinkSample.confirmer e.call,
      (e.before.row (.parentSide "parent" "student") : Option Link).map Link.status,
      (e.after.row (.parentSide "parent" "student") : Option Link).map Link.status)) =
        some (some "student", some .pending, some .active) := by decide +kernel
  obtain ⟨-, hactive, -⟩ := @parent_links LinkSample.adults LinkSample.accounts _
    ⟨fun _ _ => rfl, fun _ _ _ h => by cases h⟩ (fun _ _ => rfl) LinkSample.confirmed_meets
  cases hhead : LinkSample.confirmed.history.head? with
  | none => simp [hhead] at hlast
  | some e =>
      simp only [hhead, Option.map_some, Option.some_inj, Prod.mk.injEq, Option.map_eq_some_iff] at hlast
      obtain ⟨hcall, ⟨request, hbefore, hpending⟩, link, hafter, hstatus⟩ := hlast
      have he := List.mem_of_mem_head? hhead
      refine ⟨e, he, ?_⟩
      have hchanged : e.before.row (.parentSide "parent" "student") ≠ (some link : Option Link) := by
        rw [hbefore]
        rintro heq
        cases heq
        cases hpending.symm.trans hstatus
      rcases (hactive e he "parent" "student" link hafter hchanged).1 hstatus with ⟨r, hassign⟩ | hconfirms
      · rw [hassign] at hcall
        cases hcall
      · exact hconfirms

/-- The student confirms a request of their own: the request that was read has expired
and was replaced before the confirmation commits. Two writes are decided on it. -/
theorem own_request_confirmed :
    Reachable (service LinkSample.adults) LinkSample.accounts LinkSample.selfConfirmed ∧
    (LinkSample.selfConfirmed.history.head?.map fun e => (LinkSample.confirmer e.call,
      (e.before.row (.parentSide "parent" "student") : Option Link).map fun link => (link.status, link.createdBy),
      (e.after.row (.parentSide "parent" "student") : Option Link).map Link.status)) =
        some (some "student", some (.pending, "student"), some .active) ∧
    ¬ (decidedOn LinkSample.selfConfirmed.table "parent" "student").Nodup :=
  ⟨LinkSample.selfConfirmed_reachable, by decide +kernel, by decide +kernel⟩

end Stoa.ParentLink
