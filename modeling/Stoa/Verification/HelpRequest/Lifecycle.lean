import Stoa.Store.Solo
import Stoa.Store.Tenure
import Stoa.Verification.HelpRequest.Calls

/-! # The lifecycle, over whole runs

Seen from outside, a conversation has no request, has one that stands somehow, or
had one that is erased. Every step of the service, whatever it interleaves, is a
step of this. -/

namespace Stoa.HelpRequest

open RowStore

/-! ## Seen from outside -/

inductive Situation where
  | unasked
  | asked (x : Standing)
  | erased

namespace Situation

/-- The steps of a conversation's request, where the teachers in `deleting` are leaving. -/
inductive Step (deleting : String → Prop) : Situation → Situation → Prop where
  | stay (x : Situation) : Step deleting x x
  | ask : Step deleting unasked (asked .waiting)
  | move (x y : Standing) (moves : x.Moves deleting y) : Step deleting (asked x) (asked y)
  | erase (x : Standing) : Step deleting (asked x) erased

theorem Step.imp {deleting deleting' : String → Prop} {x y : Situation} (h : Step deleting x y)
    (hd : ∀ teacher, deleting teacher → deleting' teacher) : Step deleting' x y := by
  cases h with
  | stay => exact .stay _
  | ask => exact .ask
  | move x y moves => exact .move _ _ (moves.imp hd)
  | erase => exact .erase _

/-- The teacher the request is with. -/
def holder : Situation → Option String
  | asked x => x.holder
  | unasked | erased => none

end Situation

def Item.situation : Item → Situation
  | record row => .asked row.standing
  | tombstone => .erased

def situation (t : Table Key Row) (c : String) : Situation :=
  (t.row (.request c)).elim .unasked Item.situation

variable {env : Env} {faults : Faults} {call : Call} {t t' : Table Key Row} {c : String}

theorem situation_of_row {item : Option Item} (h : t.row (.request c) = item) :
    situation t c = item.elim .unasked Item.situation :=
  congrArg (Option.elim · Situation.unasked Item.situation) h

theorem RequestChange.step (hi : WellFormed env t) (h : RequestChange env call t t' c) :
    Situation.Step (call.Releases t c) (situation t c) (situation t' c) := by
  cases h with
  | same same =>
      rw [situation_of_row same]
      exact .stay _
  | asked r generation made conversation owner absent after =>
      rw [situation_of_row absent, situation_of_row after]
      change Situation.Step _ .unasked (.asked (r.record generation).standing)
      rw [(r.record_shows generation).standing]
      exact .ask
  | turned stored next reply found turn after =>
      rw [situation_of_row found, situation_of_row after]
      exact .move _ _ (turn.standing_moves (hi.request c stored found))

theorem Drift.step (h : Drift t t') (deleting : String → Prop) :
    Situation.Step deleting (situation t c) (situation t' c) := by
  rcases h.request c with hsame | ⟨hstored, htombstone⟩
  · rw [situation_of_row hsame]
    exact .stay _
  · obtain ⟨item, hitem⟩ := Option.ne_none_iff_exists'.mp hstored
    rw [situation_of_row hitem, situation_of_row htombstone]
    cases item with
    | record row => exact .erase _
    | tombstone => exact .stay _

/-! ## A request that is taken -/

theorem situation_asked {x : Standing} (h : situation t c = .asked x) :
    ∃ row, t.row (.request c) = some (.record row) ∧ row.standing = x := by
  unfold situation at h
  cases hrow : t.row (.request c) with
  | none =>
      rw [hrow] at h
      cases h
  | some item =>
      rw [hrow] at h
      cases item with
      | tombstone => cases h
      | record row => exact ⟨row, rfl, Situation.asked.inj h⟩

namespace Sample

def sampleEnv : Env where
  dispatch := ⟨id, fun _ _ _ _ => 0⟩
  support := TeacherSupport.Sample.sampleEnv

def start : Table Key Row := Table.empty.apply [
  .putNew (.support (.account (.profile "student"))) ⟨"student", "student", some "active", none, some 1⟩,
  .putNew (fenceKey "student") ⟨"active", some 1⟩,
  .putNew (fenceKey "teacher") ⟨"active", some 1⟩,
  .putNew (.teacherProfile "teacher")
    { userId := "teacher", role := "teacher", accountStatus := "active", version := 1
      subjects := ["math"], availabilityStatus := "available" },
  .putNew (.conversation "c") ⟨"student"⟩]

theorem start_unused : Unused start where
  cases := by
    intro k hk
    rw [Slice.row_table]
    have hrow : start.row (.support k) = none := by
      rw [start, Table.row_apply_of_notMem]
      · rfl
      · intro w hw he
        simp only [List.mem_cons, List.not_mem_nil, or_false] at hw
        rcases hw with rfl | rfl | rfl | rfl | rfl <;> cases he <;> exact hk
    exact congrArg (Option.map _) hrow
  request := by
    intro c
    rw [start, Table.row_apply_of_notMem]
    · rfl
    · intro w hw he
      simp only [List.mem_cons, List.not_mem_nil, or_false] at hw
      rcases hw with rfl | rfl | rfl | rfl | rfl <;> cases he

abbrev Run := State Key Row Call (Except Raised Result)

def solo (c : Call) (s : Run) : Run := s.solo (service sampleEnv .strongReads) c []

theorem offer_named : "offer" ≠ "" := by decide

def ask : AskRequest where
  conversationId := "c"
  ownerId := "student"
  subject := "math"
  grade := "7"
  studentId := "student"
  message := some "help"
  systemMessage := "A teacher was asked for."
  dispatchId := ⟨"offer", offer_named⟩
  now := 1774300000000000

theorem no_images : ∀ w ∈ ([] : List (Write Key Row)), ∃ name, w.key = .other name := by
  simp

def reply : ReplyRequest where
  teacherId := "teacher"
  authorName := none
  content := "Look at the second line."
  rich := none
  format := none
  attachmentIds := []
  images := []
  foreign := no_images
  noteId := "n"
  messageId := "m"
  now := 1774300060000000

def offered : Run := solo (.ask ask) (.initial start)

def taken : Run := solo (.reply "c" reply) offered

/-- The student withdraws too late. -/
def withdrawn : Run := solo (.withdraw "c" "student" 1774300120000000) taken

theorem offered_reachable : Reachable (service sampleEnv .strongReads) start offered :=
  State.solo_steps trivial trivial trivial []

theorem taken_steps : Steps (service sampleEnv .strongReads) offered taken :=
  State.solo_steps trivial trivial trivial []

theorem withdrawn_steps : Steps (service sampleEnv .strongReads) taken withdrawn :=
  State.solo_steps trivial trivial trivial []

theorem taken_reachable : Reachable (service sampleEnv .strongReads) start taken :=
  offered_reachable.trans taken_steps

theorem taken_situation : situation taken.table "c" = .asked (.held "teacher") := by
  rfl

end Sample

/-! ## The service -/

/-- The service refines the lifecycle. In every reachable state the fields of every
request agree with how it stands, and every step that the service can then make,
of any call or of other code, is a step of the lifecycle for every conversation. -/
theorem requests_follow_lifecycle {s : State Key Row Call (Except Raised Result)} (ht : Unused t)
    (h : Reachable (service env faults) t s) :
    (∀ c row, s.table.row (.request c) = some (.record row) → row.Shows row.standing) ∧
    ∀ s', Step (service env faults) s s' → ∀ c,
      Situation.Step (DeletionPending s.table) (situation s.table c) (situation s'.table c) := by
  have hs := sound ht h
  refine ⟨fun c row hrow => (hs.inv.request c row hrow).shows_standing, fun s' hstep c => ?_⟩
  rcases hs.step_table hstep with hsame | hdrift | ⟨e, -, -, -, hmove⟩
  · rw [hsame]
    exact .stay _
  · exact hdrift.step _
  · exact ((hmove.request c).step hs.inv).imp fun _ hreleases => hreleases.1

theorem requests_follow_lifecycle_sample :
    (∀ c row, Sample.taken.table.row (.request c) = some (.record row) → row.Shows row.standing) ∧
    ∀ s', Step (service Sample.sampleEnv .strongReads) Sample.taken s' → ∀ c,
      Situation.Step (DeletionPending Sample.taken.table) (situation Sample.taken.table c)
        (situation s'.table c) :=
  requests_follow_lifecycle Sample.start_unused Sample.taken_reachable

/-! ## What is over stays over -/

namespace Situation

variable {deleting : String → Prop} {x y : Situation}

/-- Nothing follows the end of a request, and nobody takes over a resolved one. -/
inductive Closed : Situation → Situation → Prop where
  | ended (outcome : Outcome) : Closed (asked (.ended outcome)) (asked (.ended outcome))
  | resolved (teacher : Option String) : Closed (asked (.resolved teacher)) (asked (.resolved teacher))
  | left (teacher : Option String) : Closed (asked (.resolved teacher)) (asked (.resolved none))
  | erased (x : Situation) : Closed x erased

theorem Closed.step {z : Situation} (h : Closed x y) (hs : Step deleting y z) : Closed x z := by
  cases h with
  | ended outcome =>
      cases hs with
      | stay => exact .ended outcome
      | move _ z moves =>
          rw [moves.of_ended]
          exact .ended outcome
      | erase => exact .erased _
  | resolved teacher =>
      cases hs with
      | stay => exact .resolved teacher
      | move _ z moves =>
          rcases moves.of_resolved with rfl | ⟨rfl, -⟩
          · exact .resolved teacher
          · exact .left teacher
      | erase => exact .erased _
  | left teacher =>
      cases hs with
      | stay => exact .left teacher
      | move _ z moves =>
          rcases moves.of_resolved with rfl | ⟨rfl, -⟩ <;> exact .left teacher
      | erase => exact .erased _
  | erased x =>
      cases hs with
      | stay => exact .erased x

theorem Step.of_erased (h : Step deleting x y) (hx : x = erased) : y = erased := by
  subst hx
  cases h
  rfl

/-- A request stays with its teacher, unless it is erased or the teacher leaves. -/
theorem Step.holder_kept (h : Step deleting x y) {teacher : String} (hx : x.holder = some teacher) :
    y.holder = some teacher ∨ y = erased ∨ deleting teacher := by
  cases h with
  | stay => exact .inl hx
  | ask => cases hx
  | move x y moves => exact (moves.holder_kept hx).imp_right .inr
  | erase => exact .inr (.inl rfl)

end Situation

/-- What is over stays over. Whatever is called after a request has ended, it has
ended the same way, or is erased; a resolved request is resolved; and a request that
a teacher has, open or resolved, is that teacher's, until their account is deleted:
a later commit takes them off while the deletion is pending. -/
theorem closed_requests_stay_closed {s s' : State Key Row Call (Except Raised Result)} (ht : Unused t)
    (h : Reachable (service env faults) t s) (hrun : Steps (service env faults) s s') (c : String) :
    (∀ outcome, situation s.table c = .asked (.ended outcome) →
      Situation.Closed (.asked (.ended outcome)) (situation s'.table c)) ∧
    (∀ teacher, situation s.table c = .asked (.resolved teacher) →
      Situation.Closed (.asked (.resolved teacher)) (situation s'.table c)) ∧
    ∀ teacher, (situation s.table c).holder = some teacher →
      (situation s'.table c).holder = some teacher ∨ situation s'.table c = .erased ∨
        ∃ H, s'.history = H ++ s.history ∧ ∃ e ∈ H, e.call.Releases e.before c teacher := by
  have hs := sound ht h
  have hstart : ∀ i c t, s.next ≤ i → WellFormed env t → Kept s.table t →
      ((service env faults).body c).Safe faults (contract env faults).toInterference (Change env c)
        (fun _ _ _ => True) [] t := fun _ c t _ hi _ => body_safe faults c t hi
  have hclosed : Situation.Closed (situation s.table c) (situation s.table c) →
      Situation.Closed (situation s.table c) (situation s'.table c) := fun hinit => by
    obtain ⟨H, -, hP⟩ := hs.since hrun hstart (P := fun _ u => Situation.Closed (situation s.table c) (situation u c))
      hinit (fun e H hi hmove hP => hP.step ((hmove.request c).step hi))
      fun H u v _ hP hd => hP.step (hd.step fun _ => False)
    exact hP
  refine ⟨fun outcome hx => ?_, fun teacher hx => ?_, fun teacher hx => ?_⟩
  · exact hx ▸ hclosed (hx ▸ .ended outcome)
  · exact hx ▸ hclosed (hx ▸ .resolved teacher)
  · have hsince : ∃ H, s'.history = H ++ s.history ∧ ((situation s'.table c).holder = some teacher ∨
        situation s'.table c = .erased ∨ ∃ e ∈ H, e.call.Releases e.before c teacher) := by
      refine hs.since hrun hstart (P := fun H u => (situation u c).holder = some teacher ∨
        situation u c = .erased ∨ ∃ e ∈ H, e.call.Releases e.before c teacher) (.inl hx) ?_ ?_
      · rintro e H hi hmove (hholder | herased | ⟨d, hd, hreleases⟩)
        · rcases ((hmove.request c).step hi).holder_kept hholder with hkept | herased | hreleases
          · exact .inl hkept
          · exact .inr (.inl herased)
          · exact .inr (.inr ⟨e, List.mem_cons_self .., hreleases⟩)
        · exact .inr (.inl (((hmove.request c).step hi).of_erased herased))
        · exact .inr (.inr ⟨d, List.mem_cons_of_mem _ hd, hreleases⟩)
      · rintro H u v hi (hholder | herased | hreleased) hdrift
        · rcases (hdrift.step (c := c) fun _ => False).holder_kept hholder with hkept | herased | hfalse
          · exact .inl hkept
          · exact .inr (.inl herased)
          · exact hfalse.elim
        · exact .inr (.inl ((hdrift.step (c := c) fun _ => False).of_erased herased))
        · exact .inr (.inr hreleased)
    obtain ⟨H, hhistory, hP⟩ := hsince
    exact hP.imp_right fun hP => hP.imp_right fun hreleased => ⟨H, hhistory, hreleased⟩

theorem closed_requests_stay_closed_sample :
    (situation Sample.withdrawn.table "c").holder = some "teacher" ∨ situation Sample.withdrawn.table "c" = .erased ∨
      ∃ H, Sample.withdrawn.history = H ++ Sample.taken.history ∧ ∃ e ∈ H, e.call.Releases e.before "c" "teacher" :=
  (closed_requests_stay_closed Sample.start_unused Sample.taken_reachable Sample.withdrawn_steps "c").2.2 "teacher"
    (congrArg Situation.holder Sample.taken_situation)

end Stoa.HelpRequest
