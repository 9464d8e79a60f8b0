import Mathlib.Data.List.Sort
import Mathlib.Data.Rat.Defs
import Mathlib.Data.String.Basic

/-! # Documents

A value that is kept in a table of documents. Whole numbers that are written come
back as decimals, and the JSON text of a value does not tell the two apart. -/

namespace Stoa

inductive Document where
  | null
  | bool (value : Bool)
  | int (value : ℤ)
  | decimal (value : ℚ)
  | string (value : String)
  | list (items : List Document)
  | map (entries : List (String × Document))

/-- A JSON text with its members in the order of their names. -/
inductive Json where
  | null
  | bool (value : Bool)
  | integer (value : ℤ)
  | float (value : ℚ)
  | string (value : String)
  | array (items : List Json)
  | object (members : List (String × Json))

namespace Json

/-- The text of a decimal: a whole one is written as the integer that it is. -/
def ofDecimal (value : ℚ) : Json := if value.den = 1 then .integer value.num else .float value

/-- The members of an object, by name. -/
def ofMembers (members : List (String × Json)) : Json :=
  .object (members.insertionSort fun a b => a.1 ≤ b.1)

@[simp] theorem ofDecimal_intCast (value : ℤ) : ofDecimal value = .integer value := by
  simp [ofDecimal]

end Json

namespace Document

/-! ## The text of a value -/

mutual

/-- `json.dumps` with sorted keys, where whole decimals are written as integers. -/
def canonical : Document → Json
  | null => .null
  | bool value => .bool value
  | int value => .integer value
  | decimal value => .ofDecimal value
  | string value => .string value
  | list items => .array (canonicalItems items)
  | map entries => .ofMembers (canonicalEntries entries)

def canonicalItems : List Document → List Json
  | [] => []
  | item :: items => item.canonical :: canonicalItems items

def canonicalEntries : List (String × Document) → List (String × Json)
  | [] => []
  | (name, value) :: entries => (name, value.canonical) :: canonicalEntries entries

end

/-! ## Storage -/

mutual

/-- The value as it is read back: every number is a decimal. -/
def stored : Document → Document
  | null => null
  | bool value => bool value
  | int value => decimal value
  | decimal value => decimal value
  | string value => string value
  | list items => list (storedItems items)
  | map entries => map (storedEntries entries)

def storedItems : List Document → List Document
  | [] => []
  | item :: items => item.stored :: storedItems items

def storedEntries : List (String × Document) → List (String × Document)
  | [] => []
  | (name, value) :: entries => (name, value.stored) :: storedEntries entries

end

mutual

/-- A value that was stored has the text that it had before. -/
theorem canonical_stored : (value : Document) → value.stored.canonical = value.canonical
  | null => rfl
  | bool _ => rfl
  | int value => Json.ofDecimal_intCast value
  | decimal _ => rfl
  | string _ => rfl
  | list items => congrArg Json.array (canonicalItems_stored items)
  | map entries => congrArg Json.ofMembers (canonicalEntries_stored entries)

theorem canonicalItems_stored : (items : List Document) →
    canonicalItems (storedItems items) = canonicalItems items
  | [] => rfl
  | item :: items => congrArg₂ List.cons (canonical_stored item) (canonicalItems_stored items)

theorem canonicalEntries_stored : (entries : List (String × Document)) →
    canonicalEntries (storedEntries entries) = canonicalEntries entries
  | [] => rfl
  | (name, value) :: entries =>
      congrArg₂ List.cons (congrArg (Prod.mk name) (canonical_stored value))
        (canonicalEntries_stored entries)

end

theorem canonicalEntries_eq_map (entries : List (String × Document)) :
    canonicalEntries entries = entries.map fun entry => (entry.1, entry.2.canonical) := by
  induction entries with
  | nil => rfl
  | cons entry entries ih => exact congrArg (List.cons (entry.1, entry.2.canonical)) ih

/-! ## Parts -/

/-- `stored_int` -/
def storedInt : Document → Option ℤ
  | int value => some value
  | decimal value => if value.den = 1 then some value.num else none
  | _ => none

/-- The number that a value is equal to. A truth value is one. -/
def number? : Document → Option ℚ
  | bool value => some (if value then 1 else 0)
  | int value => some value
  | decimal value => some value
  | _ => none

def isNull : Document → Bool
  | null => true
  | _ => false

/-- The truth value of a value. -/
def isTrue : Document → Bool
  | null => false
  | bool value => value
  | int value => value ≠ 0
  | decimal value => value ≠ 0
  | string value => value ≠ ""
  | list items => !items.isEmpty
  | map entries => !entries.isEmpty

def text? : Document → Option String
  | string value => some value
  | _ => none

def texts? : Document → Option (List String)
  | list items => items.mapM text?
  | _ => none

def items? : Document → Option (List Document)
  | list items => some items
  | _ => none

def entries? : Document → Option (List (String × Document))
  | map entries => some entries
  | _ => none

/-- `value.get(name)` of a mapping; nothing else has members. -/
def get? (value : Document) (name : String) : Option Document :=
  value.entries?.bind fun entries => entries.lookup name

theorem storedInt_stored (value : Document) : value.stored.storedInt = value.storedInt := by
  cases value with
  | int value => simp [stored, storedInt]
  | _ => rfl

theorem lookup_storedEntries (entries : List (String × Document)) (name : String) :
    (storedEntries entries).lookup name = (entries.lookup name).map stored := by
  induction entries with
  | nil => rfl
  | cons entry entries ih =>
      obtain ⟨other, value⟩ := entry
      unfold storedEntries
      rw [List.lookup_cons, List.lookup_cons]
      split
      · rfl
      · exact ih

theorem get?_stored (value : Document) (name : String) :
    value.stored.get? name = (value.get? name).map stored := by
  cases value with
  | map entries => exact lookup_storedEntries entries name
  | _ => rfl

end Document

end Stoa
