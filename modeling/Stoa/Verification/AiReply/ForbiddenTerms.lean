import Stoa.Verification.AiReply.Redaction

/-! # Forbidden terms

What the student is shown has no term in it that the text of the reply does not hide behind
an escape. -/

namespace Stoa.AiReply

open PyText JsonText

/-! ## Escapes of a text -/

/-- Whether the number of backslashes right before is even, one code point later. -/
def evenAfter (even : Bool) (x : ℕ) : Bool := if x = 92 then !even else true

/-- The text spells a code point with its number. -/
inductive Spells : Bool → Str → ℕ → Prop
  | here {a b c d code : ℕ} {s : Str} (h : hexCode a b c d = some code) : Spells true (92 :: 117 :: a :: b :: c :: d :: s) code
  | later {even : Bool} {x code : ℕ} {s : Str} (h : Spells (evenAfter even x) s code) : Spells even (x :: s) code

section

variable {s s' t u w r : Str} {even : Bool} {code : ℕ}

theorem Spells.append (h : Spells even s code) (t : Str) : Spells even (s ++ t) code := by
  induction h with
  | here h => exact .here h
  | later _ ih => exact .later ih

end

/-! ## What is parsed -/

section

variable {s t raw : Str} {v : Value}

/-- What the check gives for a text that no term is found in. -/
def Kept (raw : Str) (v : Value) : Prop := ∃ members, parseAiResponse raw = .ok (.obj members) ∧
  v = if falsy ((Value.obj members).get? (str "steps")) && falsy ((Value.obj members).get? (str "answer")) then
    withAnswer members raw else .obj members

end

end Stoa.AiReply
