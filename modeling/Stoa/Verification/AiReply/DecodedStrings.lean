import Stoa.Verification.AiReply.StreamedSteps

/-! # Strings of a reply

Each string of what is read stands in the text between two quotes, and what is not escaped
there stands in the text as it is. -/

namespace Stoa.AiReply

open PyText JsonText

/-! ## The strings of a value -/

mutual

/-- The strings of a value, the names of members among them. -/
def texts : Value → List Str
  | .null => []
  | .bool _ => []
  | .int _ => []
  | .float _ => []
  | .str value => [value]
  | .arr items => textsItems items
  | .obj members => textsMembers members

def textsItems : List Value → List Str
  | [] => []
  | item :: items => texts item ++ textsItems items

def textsMembers : List (Str × Value) → List Str
  | [] => []
  | (name, value) :: members => name :: (texts value ++ textsMembers members)

end

section

variable {s s' t r : Str}

/-- The text has the string, in quotes. -/
def Quoted (s t : Str) : Prop := ∃ u r, 34 :: u <:+ s ∧ readString u = some (t, r)

theorem Quoted.mono (h : Quoted s t) (hs : s <:+ s') : Quoted s' t := by
  obtain ⟨u, r, hu, hread⟩ := h
  exact ⟨u, r, hu.trans hs, hread⟩

end

end Stoa.AiReply
