import Stoa.Store.Quiet
import Stoa.Store.Versioned
import Stoa.Verification.HelpRequest.Receipts
import Stoa.Verification.HelpRequest.Turns
import Mathlib.Algebra.Order.Monoid.WithTop

/-! # What a commit does to requests

Every commit of every call writes one request or none, and what it writes was
computed from the record that it replaces. -/

namespace Stoa.HelpRequest

open RowStore

/-! ## Stored records -/

/-- A record that was never offered, as it is when it is asked for. -/
structure RequestRow.Fresh (row : RequestRow) : Prop where
  version : row.version = 1
  dispatchStatus : row.dispatchStatus = none
  dispatchedTeacherId : row.dispatchedTeacherId = none
  previousDispatchTeacherIds : row.previousDispatchTeacherIds = []
  dispatchAttemptCount : row.dispatchAttemptCount = 0
  noCandidateSince : row.noCandidateSince = none

structure RequestRow.WellFormed (c : String) (row : RequestRow) : Prop where
  conversationId : row.conversationId = c
  version : 1 ≤ row.version
  fresh : row.version = 1 → row.Fresh
  shows : ∃ x, row.Shows x

theorem AskRequest.record_fresh (r : AskRequest) (generation : ℤ) : (r.record generation).Fresh :=
  ⟨rfl, rfl, rfl, rfl, rfl, rfl⟩

theorem AskRequest.record_shows (r : AskRequest) (generation : ℤ) : (r.record generation).Shows .waiting :=
  .waiting rfl rfl rfl (by simp [AskRequest.record])

theorem AskRequest.record_wellFormed (r : AskRequest) (generation : ℤ) :
    (r.record generation).WellFormed r.conversationId where
  conversationId := rfl
  version := le_rfl
  fresh := fun _ => r.record_fresh generation
  shows := ⟨.waiting, r.record_shows generation⟩

section

variable {env : Env} {call : Call} {t : Table Key Row} {c : String} {stored next : RequestRow}
  {reply : Option NoteRow}

theorem Turn.wellFormed (h : Turn env call t stored reply next) (hs : stored.WellFormed c) :
    next.WellFormed c where
  conversationId := h.conversationId.trans hs.conversationId
  version := by
    have hversion := hs.version
    rw [h.version]
    omega
  fresh := by
    intro hone
    have hversion := hs.version
    rw [h.version] at hone
    omega
  shows := by
    obtain ⟨x, hx⟩ := hs.shows
    obtain ⟨y, hy, -⟩ := h.moves hx
    exact ⟨y, hy⟩

theorem RequestRow.WellFormed.shows_standing (h : stored.WellFormed c) : stored.Shows stored.standing := by
  obtain ⟨x, hx⟩ := h.shows
  rw [hx.standing]
  exact hx

theorem Turn.standing_moves (h : Turn env call t stored reply next) (hs : stored.WellFormed c) :
    stored.standing.Moves (call.Releases t c) next.standing := by
  obtain ⟨y, hy, hmoves⟩ := h.moves hs.shows_standing
  rw [hy.standing]
  exact hs.conversationId ▸ hmoves

end

/-! ## What every call may rely on -/

/-- The version of what is stored; a tombstone is the last. -/
def Item.version : Item → WithTop ℤ
  | .record row => row.version
  | .tombstone => ⊤

structure WellFormed (env : Env) (t : Table Key Row) : Prop where
  cases : TeacherSupport.Cases env.support (support.table t)
  request : ∀ c row, t.row (.request c) = some (.record row) → row.WellFormed c

/-- Requests, receipts and counters only get newer. -/
structure Kept (t u : Table Key Row) : Prop where
  cases : TeacherSupport.Keeps (support.table t) (support.table u)
  request : ∀ c, Newer Item.version (t.row (.request c)) (u.row (.request c))

def requests (env : Env) : Interference Key Row where
  Inv := WellFormed env
  Rely := Kept
  refl := fun _ => ⟨.refl _, fun _ => .refl _ _⟩
  trans := fun h h' => ⟨h.cases.trans h'.cases, fun c => (h.request c).trans (h'.request c)⟩

/-- The record that was read, where its version is found again. -/
theorem Kept.stored {t u : Table Key Row} (h : Kept t u) {c : String} {record stored : RequestRow}
    (hread : t.row (.request c) = some (.record record)) (hstored : u.row (.request c) = some (.record stored))
    (hversion : stored.version = record.version) : stored = record := by
  have hnewer := h.request c
  rw [hread, hstored] at hnewer
  exact Item.record.inj (hnewer.eq_of_version (congrArg WithTop.some hversion))

/-! ## Changes -/

/-- The rows of the allowance are left. -/
def CasesLeft (t t' : Table Key Row) : Prop :=
  ∀ k : TeacherSupport.Key, k.IsOwn → t'.row (.support k) = t.row (.support k)

/-- No other request is written. -/
def OthersLeft (c : String) (t t' : Table Key Row) : Prop :=
  ∀ d, d ≠ c → t'.row (.request d) = t.row (.request d)

/-- The replies that there are afterwards. -/
def Replies (t t' : Table Key Row) (reply : Option NoteRow) : Prop :=
  (∀ note ∈ reply, t.row (.note note.conversationId note.noteId) = none) ∧
    ∀ c n, t'.row (.note c n) =
      if reply.any (fun note => note.conversationId = c ∧ note.noteId = n) then reply
      else t.row (.note c n)

def Status.isEnded : Status → Bool
  | withdrawn | expired => true
  | pending | inProgress | resolved => false

/-- What a commit does to requests, replies and receipts. -/
inductive Change (env : Env) (call : Call) (t t' : Table Key Row) : Prop where
  | other (same : ∀ c, t'.row (.request c) = t.row (.request c)) (replies : Replies t t' none)
      (cases : TeacherSupport.Change env.support (support.table t) (support.table t'))
      (receipts : ∀ x, t'.row (.support (.receipt x)) = t.row (.support (.receipt x)))
  | asked (r : AskRequest) (generation : ℤ) (receipt : TeacherSupport.ReceiptRow) (made : call = .ask r)
      (owner : ∃ row, t.row (.conversation r.conversationId) = some row ∧ row.studentId = r.studentId)
      (absent : t.row (.request r.conversationId) = none)
      (after : t'.row (.request r.conversationId) = some (.record (r.record generation)))
      (others : OthersLeft r.conversationId t t') (replies : Replies t t' none)
      (cases : TeacherSupport.Change env.support (support.table t) (support.table t'))
      (spends : TeacherSupport.Spends env.support (support.table t) (support.table t') receipt)
      (kind : receipt.caseKind = .conversation) (case : receipt.supportCaseId.val = r.conversationId)
      (beneficiary : receipt.beneficiaryId.val = r.studentId)
  | turned (c : String) (stored next : RequestRow) (reply : Option NoteRow)
      (found : t.row (.request c) = some (.record stored)) (turn : Turn env call t stored reply next)
      (lasting : next.status.isEnded = stored.status.isEnded)
      (after : t'.row (.request c) = some (.record next)) (others : OthersLeft c t t')
      (replies : Replies t t' reply) (cases : CasesLeft t t')
  | ended (c : String) (stored : RequestRow) (r : EndRequest) (v : TeacherSupport.RefundCase)
      (found : t.row (.request c) = some (.record stored)) (made : call.Ends stored.conversationId r)
      (due : r.decide (some stored) = .ok (.inr stored)) (free : stored.isFree = true)
      (after : t'.row (.request c) =
        some (.record { r.ended stored with version := stored.version + 1 }))
      (others : OthersLeft c t t') (replies : Replies t t' none)
      (cases : TeacherSupport.Change env.support (support.table t) (support.table t'))
      (ends : TeacherSupport.CaseEnds env.support v (support.table t) (support.table t'))
      (kind : v.kind = .conversation) (case : v.caseId.val = c)
      (beneficiary : v.beneficiary.val = stored.studentId)

/-! ### Seen from one request -/

/-- What a commit does to one request. -/
inductive RequestChange (env : Env) (call : Call) (t t' : Table Key Row) (c : String) : Prop where
  | same (same : t'.row (.request c) = t.row (.request c))
  | asked (r : AskRequest) (generation : ℤ) (made : call = .ask r) (conversation : r.conversationId = c)
      (owner : ∃ row, t.row (.conversation c) = some row ∧ row.studentId = r.studentId)
      (absent : t.row (.request c) = none)
      (after : t'.row (.request c) = some (.record (r.record generation))) (replies : Replies t t' none)
  | turned (stored next : RequestRow) (reply : Option NoteRow)
      (found : t.row (.request c) = some (.record stored)) (turn : Turn env call t stored reply next)
      (after : t'.row (.request c) = some (.record next)) (replies : Replies t t' reply)

section

variable {env : Env} {call : Call} {t t' : Table Key Row}

theorem Change.request (h : Change env call t t') (c : String) : RequestChange env call t t' c := by
  cases h with
  | other same => exact .same (same c)
  | asked r generation receipt made owner absent after others replies =>
      by_cases hc : c = r.conversationId
      · subst hc
        exact .asked r generation made rfl owner absent after replies
      · exact .same (others c hc)
  | turned d stored next reply found turn lasting after others replies =>
      by_cases hc : c = d
      · subst hc
        exact .turned stored next reply found turn after replies
      · exact .same (others c hc)
  | ended d stored r v found made due free after others replies =>
      by_cases hc : c = d
      · subst hc
        exact .turned stored _ none found (.ended r made due free) after replies
      · exact .same (others c hc)

theorem RequestChange.wellFormed {c : String} {row : RequestRow} (h : RequestChange env call t t' c)
    (ht : ∀ row, t.row (.request c) = some (.record row) → row.WellFormed c)
    (hrow : t'.row (.request c) = some (.record row)) : row.WellFormed c := by
  cases h with
  | same same => exact ht row (same.symm.trans hrow)
  | asked r generation made conversation owner absent after =>
      cases after.symm.trans hrow
      exact conversation ▸ r.record_wellFormed generation
  | turned stored next reply found turn after =>
      cases after.symm.trans hrow
      exact turn.wellFormed (ht stored found)

theorem RequestChange.newer {c : String} (h : RequestChange env call t t' c) :
    Newer Item.version (t.row (.request c)) (t'.row (.request c)) := by
  cases h with
  | same same =>
      rw [same]
      exact .refl _ _
  | asked r generation made conversation owner absent after =>
      rw [absent]
      trivial
  | turned stored next reply found turn after =>
      rw [found, after]
      refine .inr (WithTop.coe_lt_coe.mpr ?_)
      rw [turn.version]
      exact Int.lt_succ _

theorem CasesLeft.agrees (h : CasesLeft t t') :
    (support.table t').AgreesOn TeacherSupport.Key.IsOwn (support.table t) := fun k hk => by
  rw [Slice.row_table, Slice.row_table]
  exact congrArg _ (h k hk)

theorem CasesLeft.change (h : CasesLeft t t') :
    TeacherSupport.Change env.support (support.table t) (support.table t') :=
  .nothing fun k hk => h.agrees k hk.isOwn

theorem Change.cases (h : Change env call t t') :
    TeacherSupport.Change env.support (support.table t) (support.table t') := by
  cases h with
  | other same replies cases => exact cases
  | asked r generation receipt made owner absent after others replies cases => exact cases
  | turned c stored next reply found turn lasting after others replies cases => exact cases.change
  | ended c stored r v found made due free after others replies cases => exact cases

theorem Change.wellFormed (ht : WellFormed env t) (h : Change env call t t') : WellFormed env t' where
  cases := h.cases.cases ht.cases
  request := fun c _ hrow => (h.request c).wellFormed (ht.request c) hrow

theorem Change.kept (h : Change env call t t') : Kept t t' where
  cases := h.cases.keeps
  request := fun c => (h.request c).newer

/-! ### Other code -/

theorem Drift.wellFormed (ht : WellFormed env t) (h : Drift t t') : WellFormed env t' where
  cases := ht.cases.agree fun k hk => CasesLeft.agrees h.support k hk.isOwn
  request := by
    intro c row hrow
    rcases h.request c with hsame | ⟨-, htombstone⟩
    · exact ht.request c row (hsame.symm.trans hrow)
    · cases htombstone.symm.trans hrow

theorem Drift.kept (h : Drift t t') : Kept t t' where
  cases := .of_agree fun k hk => CasesLeft.agrees h.support k hk.isOwn
  request := by
    intro c
    rcases h.request c with hsame | ⟨hstored, htombstone⟩
    · rw [hsame]
      exact .refl _ _
    · obtain ⟨item, hitem⟩ := Option.ne_none_iff_exists'.mp hstored
      rw [hitem, htombstone]
      cases item with
      | record row => exact .inr (WithTop.coe_lt_top _)
      | tombstone => exact .inl rfl

end

end Stoa.HelpRequest
