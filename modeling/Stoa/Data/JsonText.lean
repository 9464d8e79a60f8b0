import Stoa.Data.PyText

/-! # JSON texts

The text that a value is written as, and the value that a text is read as. -/

open PyText

namespace JsonText

/-! ## Numbers -/

def isDigit (c : ℕ) : Bool := 48 ≤ c && c ≤ 57

/-- `-`, where it stands. -/
def readSign : Str → Str × Str
  | 45 :: s => ([45], s)
  | s => ([], s)

/-- The digits before the point. -/
def readWhole : Str → Option (Str × Str)
  | 48 :: s => some ([48], s)
  | s => if (s.takeWhile isDigit) = [] then none else some (s.takeWhile isDigit, s.dropWhile isDigit)

/-- The point and the digits after it, where they stand. -/
def readFraction : Str → Str × Str
  | 46 :: s => if s.takeWhile isDigit = [] then ([], 46 :: s) else (46 :: s.takeWhile isDigit, s.dropWhile isDigit)
  | s => ([], s)

/-- The sign of an exponent, where it stands. -/
def readExponentSign : Str → Str × Str
  | 43 :: s => ([43], s)
  | 45 :: s => ([45], s)
  | s => ([], s)

/-- The exponent, where it stands. -/
def readExponent : Str → Str × Str
  | c :: s =>
    if c = 101 ∨ c = 69 then
      let (sign, digits) := readExponentSign s
      if digits.takeWhile isDigit = [] then ([], c :: s)
      else (c :: sign ++ digits.takeWhile isDigit, digits.dropWhile isDigit)
    else ([], c :: s)
  | [] => ([], [])

/-- A number as it is written: whether it is whole, and its text. -/
def readNumber (s : Str) : Option (Bool × Str × Str) := do
  let (sign, s) := readSign s
  let (whole, s) ← readWhole s
  let (fraction, s) := readFraction s
  let (exponent, s) := readExponent s
  return (fraction = [] ∧ exponent = [], sign ++ whole ++ fraction ++ exponent, s)

/-- The number that some digits write. -/
def ofDigits (s : Str) : ℕ := s.foldl (fun n c => n * 10 + (c - 48)) 0

def ofLiteral : Str → ℤ
  | 45 :: s => -(ofDigits s : ℤ)
  | s => ofDigits s

/-- The numbers that JSON itself does not have. -/
def constants : List Str := [str "NaN", str "Infinity", str "-Infinity"]

/-- A floating number, by the text that it is written as. -/
structure Float where
  literal : Str
  wellFormed : literal ∈ constants ∨ readNumber literal = some (false, literal, [])

instance : DecidableEq Float := fun a b => decidable_of_iff (a.literal = b.literal) <| by
  cases a
  cases b
  simp

/-- The number after the letter of an exponent. -/
def ofExponent : Str → ℤ
  | _ :: 43 :: s => ofDigits s
  | _ :: s => ofLiteral s
  | [] => 0

/-- A floating number is zero, or so near to it that it is read as zero. -/
def Float.isZero (value : Float) : Bool :=
  match readWhole (readSign value.literal).2 with
  | none => false
  | some (whole, s) =>
    let (fraction, s) := readFraction s
    let digits := ofDigits (whole ++ fraction.drop 1)
    let power := ofExponent (readExponent s).1 - ((fraction.length - 1 : ℕ) : ℤ)
    digits = 0 || (power < 0 && digits * 2 ^ 1075 ≤ 10 ^ (-power).toNat)

/-! ## Values -/

inductive Value where
  | null
  | bool (value : Bool)
  | int (value : ℤ)
  | float (value : Float)
  | str (value : Str)
  | arr (items : List Value)
  | obj (members : List (Str × Value))

/-- `dict[name] = value` -/
def insertMember (members : List (Str × Value)) (member : Str × Value) : List (Str × Value) :=
  if member.1 ∈ members.map Prod.fst then members.map fun m => if m.1 = member.1 then member else m
  else members ++ [member]

/-- The members of an object: one that comes again replaces what there was. -/
def ofMembers (members : List (Str × Value)) : Value := .obj (members.foldl insertMember [])

/-- A member of an object. -/
def Value.get? : Value → Str → Option Value
  | .obj members, name => (members.find? fun m => m.1 = name).map Prod.snd
  | _, _ => none

/-! ## Strings -/

def hexDigit (n : ℕ) : ℕ := if n < 10 then 48 + n else 87 + n

/-- What is written for one code point. -/
def escapeCode (c : ℕ) : Str :=
  if c = 34 then [92, 34]
  else if c = 92 then [92, 92]
  else if c = 10 then [92, 110]
  else if c = 13 then [92, 114]
  else if c = 9 then [92, 116]
  else if c = 12 then [92, 102]
  else if c = 8 then [92, 98]
  else if c < 32 then [92, 117, 48, 48, hexDigit (c / 16), hexDigit (c % 16)]
  else [c]

def escape (s : Str) : Str := s.flatMap escapeCode

def hexValue (c : ℕ) : Option ℕ :=
  if 48 ≤ c ∧ c ≤ 57 then some (c - 48)
  else if 97 ≤ c ∧ c ≤ 102 then some (c - 87)
  else if 65 ≤ c ∧ c ≤ 70 then some (c - 55)
  else none

def hexCode (a b c d : ℕ) : Option ℕ := do
  return (((← hexValue a) * 16 + (← hexValue b)) * 16 + (← hexValue c)) * 16 + (← hexValue d)

/-- The code point that a letter after a backslash stands for. -/
def unescape (c : ℕ) : Option ℕ :=
  if c = 34 ∨ c = 92 ∨ c = 47 then some c
  else if c = 98 then some 8
  else if c = 102 then some 12
  else if c = 110 then some 10
  else if c = 114 then some 13
  else if c = 116 then some 9
  else none

def isHigh (c : ℕ) : Bool := 0xd800 ≤ c && c ≤ 0xdbff

def isLow (c : ℕ) : Bool := 0xdc00 ≤ c && c ≤ 0xdfff

/-- An escaped code point, with the one that is escaped right after it where the two make
one code point together. -/
def combine (code : ℕ) (rest read : Str) : Str :=
  match read with
  | low :: later =>
    if isHigh code ∧ [92, 117] <+: rest ∧ isLow low then
      (0x10000 + (code - 0xd800) * 0x400 + (low - 0xdc00)) :: later
    else code :: read
  | [] => [code]

/-- The rest of a string, up to its closing quote. -/
def readString : Str → Option (Str × Str)
  | [] => none
  | 34 :: s => some ([], s)
  | 92 :: 117 :: a :: b :: c :: d :: s =>
    (hexCode a b c d).bind fun code => (readString s).map fun (read, rest) => (combine code s read, rest)
  | 92 :: c :: s => (unescape c).bind fun code => (readString s).map fun (read, rest) => (code :: read, rest)
  | c :: s => if c < 32 ∨ c = 92 then none else (readString s).map fun (read, rest) => (c :: read, rest)

/-! ## Reading -/

/-- The blanks between the parts of a text. -/
def isBlank (c : ℕ) : Bool := c == 32 || c == 9 || c == 10 || c == 13

def skip (s : Str) : Str := s.dropWhile isBlank

/-- A word with a meaning of its own. -/
def readWord (s : Str) : Option (Value × Str) :=
  if str "null" <+: s then some (.null, s.drop 4)
  else if str "true" <+: s then some (.bool true, s.drop 4)
  else if str "false" <+: s then some (.bool false, s.drop 5)
  else if str "NaN" <+: s then some (.float ⟨str "NaN", .inl (by decide)⟩, s.drop 3)
  else if str "Infinity" <+: s then some (.float ⟨str "Infinity", .inl (by decide)⟩, s.drop 8)
  else if str "-Infinity" <+: s then some (.float ⟨str "-Infinity", .inl (by decide)⟩, s.drop 9)
  else none

def readNumeric (s : Str) : Option (Value × Str) :=
  match readNumber s with
  | none => none
  | some (true, literal, rest) => some (.int (ofLiteral literal), rest)
  | some (false, literal, rest) =>
    if h : readNumber literal = some (false, literal, []) then some (.float ⟨literal, .inr h⟩, rest) else none

mutual

def readValue : ℕ → Str → Option (Value × Str)
  | 0, _ => none
  | _ + 1, 34 :: s => (readString s).map fun (read, rest) => (.str read, rest)
  | fuel + 1, 91 :: s =>
    match skip s with
    | 93 :: rest => some (.arr [], rest)
    | first => (readItems fuel first).map fun (items, rest) => (.arr items, rest)
  | fuel + 1, 123 :: s =>
    match skip s with
    | 125 :: rest => some (.obj [], rest)
    | first => (readMembers fuel first).map fun (members, rest) => (ofMembers members, rest)
  | _ + 1, s => (readWord s).or (readNumeric s)

def readItems : ℕ → Str → Option (List Value × Str)
  | 0, _ => none
  | fuel + 1, s => do
    let (item, s) ← readValue fuel s
    match skip s with
    | 44 :: s => (readItems fuel (skip s)).map fun (items, rest) => (item :: items, rest)
    | 93 :: rest => some ([item], rest)
    | _ => none

def readMembers : ℕ → Str → Option (List (Str × Value) × Str)
  | 0, _ => none
  | fuel + 1, 34 :: s => do
    let (name, s) ← readString s
    match skip s with
    | 58 :: s =>
      let (value, s) ← readValue fuel (skip s)
      match skip s with
      | 44 :: s => (readMembers fuel (skip s)).map fun (members, rest) => ((name, value) :: members, rest)
      | 125 :: rest => some ([(name, value)], rest)
      | _ => none
    | _ => none
  | _ + 1, _ => none

end

/-- `json.loads`, where no text is too deep to be read. -/
def loads (s : Str) : Option Value :=
  (readValue (2 * s.length + 2) (skip s)).bind fun (value, rest) => if skip rest = [] then some value else none

/-! ## Writing -/

mutual

/-- `json.dumps`, with blanks after what separates the parts. -/
def dumps (gap : Str) : Value → Str
  | .null => str "null"
  | .bool true => str "true"
  | .bool false => str "false"
  | .int value => ofInt value
  | .float value => value.literal
  | .str value => 34 :: escape value ++ [34]
  | .arr items => 91 :: dumpsItems gap items ++ [93]
  | .obj members => 123 :: dumpsMembers gap members ++ [125]

def dumpsItems (gap : Str) : List Value → Str
  | [] => []
  | [item] => dumps gap item
  | item :: next :: items => dumps gap item ++ 44 :: gap ++ dumpsItems gap (next :: items)

def dumpsMembers (gap : Str) : List (Str × Value) → Str
  | [] => []
  | [(name, value)] => 34 :: escape name ++ 34 :: 58 :: gap ++ dumps gap value
  | (name, value) :: next :: members =>
    34 :: escape name ++ 34 :: 58 :: gap ++ dumps gap value ++ 44 :: gap ++ dumpsMembers gap (next :: members)

end

end JsonText
