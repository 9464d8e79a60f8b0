import Stoa.Model.PasswordCode
import Stoa.Store.Log
import Stoa.Store.Solo

/-! # A password code is used once

A code is consumed under its own identity, so it is used once and only while it is
stored. How many texts are judged against it is another matter: a call judges on the
count that it has read, and charges afterwards. -/

namespace Stoa.PasswordCode

open RowStore

variable {lib : Library}

section

/-! ## What a call submits -/

-- The check of the account is not looked into.
attribute [local irreducible] requiredUserId

/-- The text is wrong for what the call has read. -/
def CodeRow.Wrong (lib : Library) (stored : CodeRow) (presented : String) : Prop :=
  stored.isJudgeable lib presented = false ∨ lib.digest presented stored.salt ≠ stored.codeDigest

/-- The transactions of a call, each with what was decided before it. -/
inductive Submitted (lib : Library) : Call → List (Write Key Row) → Prop
  | stores (r : StoreCode) (owner : String) : Submitted lib (.storeCode r) (stores lib r owner)
  | judges (v : VerifyAndConsume) (owner : String) (stored : CodeRow)
      (hcount : stored.attempts < MAX_VERIFY_ATTEMPTS) (hwrong : stored.Wrong lib v.code) :
      Submitted lib (.verifyAndConsume v) (judges owner stored)
  | charges (v : VerifyAndConsume) (owner : String) (stored : CodeRow) :
      Submitted lib (.verifyAndConsume v) (charges owner stored)
  | consumes (v : VerifyAndConsume) (owner : String) (stored : CodeRow)
      (hright : lib.digest v.code stored.salt = stored.codeDigest) :
      Submitted lib (.verifyAndConsume v) (consumes owner stored v.now)

theorem submits_storeCode (r : StoreCode) : (storeCode lib r).run.Submits (Submitted lib (.storeCode r)) := by
  refine Handler.submits_bind trivial fun owner => ?_
  refine Handler.submits_submit_bind (.stores r owner) fun done => ?_
  split <;> trivial

end

/-! ## What a commit does -/

abbrev Entry := Commit Key Row Call

/-- How many wrong texts were judged against a code. -/
def judged (t : Table Key Row) (owner : String) (row : CodeRow) : ℕ :=
  ((t.row (.judged owner)).getD ([] : List CodeRow)).countP row.sameCode

/-- The stored code of the account is used. -/
def Uses (e : Entry) (owner : String) : Prop :=
  ∃ row row' : CodeRow, e.before.row (.code owner) = some row ∧ row.consumedAt = none ∧
    e.after.row (.code owner) = some row' ∧ row'.consumedAt ≠ none

section

variable {c : Call} {ops : List (Write Key Row)} {t : Table Key Row} {owner : String} {row : CodeRow}

end

/-! ## Once -/

section

variable {G : Call → List (Write Key Row) → Table Key Row → Prop} {t : Table Key Row} {history : List Entry}
  {owner : String}

end

/-! ## At most five guesses -/

section

variable {c : Call} {ops : List (Write Key Row)} {t : Table Key Row} {owner : String} {row stored : CodeRow}

end

/-! ## Answers -/

section

attribute [local irreducible] requiredUserId

variable {t : Table Key Row} {s : State Key Row Call (Except Raised Answer)}

/-- A call that knows that it has used a code. -/
def HasUsed (w : View Key Row Call) (g : ℕ → Option Bool) : Prop :=
  ∀ i, g i = some true → ∃ e ∈ w.history, e.id = i ∧ ∃ owner, Uses e owner

theorem HasUsed.commit {w : View Key Row Call} {g : ℕ → Option Bool} (h : HasUsed w g) (i : ℕ) (c : Call)
    (ops : List (Write Key Row)) : HasUsed (w.commit i c ops) g := fun j hj => by
  obtain ⟨e, he, hid⟩ := h j hj
  exact ⟨e, List.mem_cons_of_mem _ he, hid⟩

theorem HasUsed.learn {w : View Key Row Call} {g : ℕ → Option Bool} (h : HasUsed w g) {i : ℕ} {x : Option Bool}
    (hx : x = some true → ∃ e ∈ w.history, e.id = i ∧ ∃ owner, Uses e owner) :
    HasUsed w (Function.update g i x) := fun j hj => by
  by_cases heq : j = i
  · subst heq
    rw [Function.update_self] at hj
    exact hx hj
  · rw [Function.update_of_ne heq] at hj
    exact h j hj

/-- A call answers that it accepts a code only if it has used one. -/
def Truthful (r : Except Raised Answer) (x : Bool) : Prop := r = .ok .accepted → x = true

variable {F : Access Key Row} {i : ℕ} {c : Call} {owner : String} {stored : CodeRow} {x : Bool}

end

/-! ## Calls that run alone -/

section

attribute [local irreducible] requiredUserId

variable {c : Call} {t : Table Key Row}

/-- Every wrong text is in the stored count. -/
def Agrees (t : Table Key Row) : Prop :=
  ∀ owner (row : CodeRow), t.row (.code owner) = some row → (judged t owner row : ℤ) ≤ row.attempts

end

/-! ## Six guesses -/

namespace CodeSample

def library : Library where
  digest code salt := code ++ salt
  isdigit text := text ≠ "" ∧ text.toList.all fun c => '0' ≤ c ∧ c ≤ '9'

abbrev Run := State Key Row Call (Except Raised Answer)

def now : ℕ := 1700000000

def storing : Call := .storeCode ⟨"user", "123456", "salt", 1700000000⟩

def right : Call := .verifyAndConsume ⟨"user", "123456", 1700000000⟩

def code : CodeRow := ⟨"123456salt", "salt", 1700000000, 1700000600, 0, none⟩

def beginning : Run := { State.initial Table.empty with clock := now }

/-- A code is stored. -/
def stored : Run := beginning.solo (service library) storing []

/-- The right text, presented alone. -/
def accepted : Run := stored.solo (service library) right []

end CodeSample

end Stoa.PasswordCode
