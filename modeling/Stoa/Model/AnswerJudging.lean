import Stoa.Data.Decimal
import Stoa.Data.Substitution

/-! # Judging answers

From `stoa/services/answer_judging.py`. Texts are lists of code points. -/

open PyText

namespace Stoa.AnswerJudging

/-- What the Unicode tables say of texts and of code points. -/
structure Unicode where
  /-- `unicodedata.normalize("NFKC", ·)` -/
  nfkc : Str → Str
  /-- `str.lower` -/
  lower : Str → Str
  /-- The value of a decimal digit, which is what `\d` matches and `Decimal` reads. -/
  digit : ℕ → Option ℕ
  /-- `str.isalnum` of one code point -/
  isAlnum : ℕ → Bool

/-- The tables of texts in ASCII, with blanks of any kind among them. -/
def Unicode.ascii : Unicode where
  nfkc := List.map fun c =>
    if c = 0xa0 || (0x2000 ≤ c && c ≤ 0x200a) || c = 0x202f || c = 0x205f || c = 0x3000 then 32 else c
  lower := List.map fun c => if 65 ≤ c && c ≤ 90 then c + 32 else c
  digit := fun c => if 48 ≤ c && c ≤ 57 then some (c - 48) else none
  isAlnum := fun c => (48 ≤ c && c ≤ 57) || (65 ≤ c && c ≤ 90) || (97 ≤ c && c ≤ 122)

variable (unicode : Unicode)

def Unicode.isDigit (c : ℕ) : Bool := (unicode.digit c).isSome

/-- `[^\W\d_]` -/
def Unicode.isLetter (c : ℕ) : Bool := unicode.isAlnum c && !unicode.isDigit c

/-! ## The expressions -/

/-- A minus sign as a hyphen, and the other slashes as the usual one. -/
def minusSigns (c : ℕ) : ℕ :=
  match c with
  | 0x2212 => 45
  | 0x2044 | 0x2215 => 47
  | c => c

def isDash (c : ℕ) : Bool := [45, 0x2013, 0x2014].contains c

def isApostrophe (c : ℕ) : Bool := [39, 0x2019].contains c

def isSeparator (c : ℕ) : Bool := [46, 44].contains c

def isOperator (c : ℕ) : Bool := [61, 43, 45, 42, 47, 58, 0xb7, 0xd7, 40, 41, 60, 62].contains c

open Regex

/-- `(\d)\.[-–—]+(?!\d)` -/
def wholePrice : Regex :=
  all [group (one unicode.isDigit), one (· == 46), plus (one isDash), notAhead (one unicode.isDigit)]

/-- `(?<![\d.,])\d+(?:['’]\d{3})*(?:[.,]\d+)?(?![\d'’])`. Before a digit, nothing of `[\d.,]`
stands where a run of these begins. -/
def number : Regex :=
  all [boundary fun c => unicode.isDigit c || isSeparator c, plus (one unicode.isDigit),
    star (all [one isApostrophe, one unicode.isDigit, one unicode.isDigit, one unicode.isDigit]),
    opt (seq (one isSeparator) (plus (one unicode.isDigit))),
    notAhead (one fun c => unicode.isDigit c || isApostrophe c)]

/-- `\s*([=+\-*/:·×()<>])\s*` -/
def operatorSpacing : Regex := all [star (one PyText.isSpace), group (one isOperator), star (one PyText.isSpace)]

/-- `(\d)([^\W\d_])` -/
def digitThenLetter : Regex := all [group (one unicode.isDigit), one unicode.isLetter]

/-- `\s+` -/
def whitespace : Regex := plus (one PyText.isSpace)

/-! ## Normal forms -/

/-- The context of a thread that has not set one. -/
def context : Decimal.Context := { prec := 28, emin := -999999, emax := 999999 }

/-- `_canonical_number` of what the expression has matched. -/
def canonicalNumber (whole : Str) : Except Decimal.Signal Str :=
  let text := (whole.filter (!isApostrophe ·)).map fun c => if c = 44 then 46 else c
  match Decimal.ofText unicode.digit text with
  | none => .ok whole
  | some value =>
    if value.value = value.toIntegralValue.value then Decimal.formatF <$> value.quantize context 0
    else Decimal.formatF <$> value.normalize context

/-- `str.rstrip(".")` -/
def withoutFullStops (s : Str) : Str := (s.reverse.dropWhile (· = 46)).reverse

def normalizeAnswer (value : Str) : Except Decimal.Signal Str := do
  let text := unicode.lower ((unicode.nfkc value).map minusSigns)
  let text := PyText.strip (whitespace.subWith (fun _ => [32]) text)
  let text := (wholePrice unicode).subWith (fun m => m.2.group) text
  let text ← (number unicode).subWithM (fun m => canonicalNumber unicode (matched m)) text
  let text := operatorSpacing.subWith (fun m => m.2.group) text
  let text := (digitThenLetter unicode).subWith (fun m => m.2.group ++ 32 :: (matched m).drop m.2.group.length) text
  return PyText.strip (withoutFullStops text)

/-! ## Judging -/

/-- What is submitted, or a key. -/
inductive Answer where
  | text (s : Str)
  | list (items : List Str)
deriving DecidableEq

/-- `_normalized` -/
def normalized : Answer → Except Decimal.Signal Str
  | .list items => join [124] <$> items.mapM (normalizeAnswer unicode)
  | .text s => normalizeAnswer unicode s

def judge (submitted correctAnswer : Answer) (acceptedAnswers : List Answer) : Except Decimal.Signal Bool := do
  let answer ← normalized unicode submitted
  if answer = [] then return false
  (correctAnswer :: acceptedAnswers).anyM fun key => do return answer = (← normalized unicode key)

end Stoa.AnswerJudging
