import Stoa.Model.AskPrompt

/-! # Figures

A figure of an exercise is a small drawing in SVG. It is checked element by element and
attribute by attribute as the XML parser reads it, and stored as it was written. -/

namespace Stoa.Figure

open PyText

def MAX_FIGURE_LENGTH : ℕ := 32000

def SVG_NAMESPACE : Str := str "http://www.w3.org/2000/svg"

def ELEMENTS : List Str :=
  ["svg", "g", "defs", "marker", "title", "desc", "line", "polyline", "polygon", "rect", "circle", "ellipse", "path",
    "text", "tspan"].map str

def ATTRIBUTES : List Str :=
  ["xmlns", "viewBox", "width", "height", "preserveAspectRatio", "role", "aria-label", "id", "transform",
    "x", "y", "x1", "y1", "x2", "y2", "cx", "cy", "r", "rx", "ry", "d", "points", "dx", "dy",
    "fill", "fill-opacity", "fill-rule", "stroke", "stroke-width", "stroke-opacity",
    "stroke-linecap", "stroke-linejoin", "stroke-dasharray", "stroke-dashoffset", "opacity",
    "font-size", "font-family", "font-weight", "font-style", "text-anchor", "dominant-baseline",
    "markerWidth", "markerHeight", "refX", "refY", "orient", "markerUnits",
    "marker-start", "marker-mid", "marker-end"].map str

/-! ## Documents as they are written -/

/-- White space of XML. -/
def isBlank (c : ℕ) : Bool := c = 32 ∨ c = 9 ∨ c = 10 ∨ c = 13

/-- `NameStartChar` of XML, with the colon. -/
def isNameStart (c : ℕ) : Bool :=
  c = 58 ∨ c = 95 ∨ (65 ≤ c ∧ c ≤ 90) ∨ (97 ≤ c ∧ c ≤ 122) ∨ (0xc0 ≤ c ∧ c ≤ 0xd6) ∨ (0xd8 ≤ c ∧ c ≤ 0xf6) ∨
    (0xf8 ≤ c ∧ c ≤ 0x2ff) ∨ (0x370 ≤ c ∧ c ≤ 0x37d) ∨ (0x37f ≤ c ∧ c ≤ 0x1fff) ∨ (0x200c ≤ c ∧ c ≤ 0x200d) ∨
    (0x2070 ≤ c ∧ c ≤ 0x218f) ∨ (0x2c00 ≤ c ∧ c ≤ 0x2fef) ∨ (0x3001 ≤ c ∧ c ≤ 0xd7ff) ∨
    (0xf900 ≤ c ∧ c ≤ 0xfdcf) ∨ (0xfdf0 ≤ c ∧ c ≤ 0xfffd) ∨ (0x10000 ≤ c ∧ c ≤ 0xeffff)

/-- `NameChar` of XML. -/
def isNameChar (c : ℕ) : Bool :=
  isNameStart c ∨ c = 45 ∨ c = 46 ∨ (48 ≤ c ∧ c ≤ 57) ∨ c = 0xb7 ∨ (0x300 ≤ c ∧ c ≤ 0x36f) ∨ (0x203f ≤ c ∧ c ≤ 0x2040)

def IsName (name : Str) : Prop := name ≠ [] ∧ ∀ c ∈ name, isNameChar c = true

/-- An attribute with the white space around its parts. -/
structure Attribute where
  before : Str
  name : Str
  beforeEquals : Str
  afterEquals : Str
  quote : ℕ
  raw : Str
  deriving DecidableEq

structure Tag where
  name : Str
  attributes : List Attribute
  after : Str
  deriving DecidableEq

inductive Token where
  | text (raw : Str)
  | comment (body : Str)
  | cdata (body : Str)
  | instruction (body : Str)
  | doctype (body : Str)
  | opening (tag : Tag)
  | empty (tag : Tag)
  | closing (name after : Str)
  deriving DecidableEq

def Attribute.render (a : Attribute) : Str :=
  a.before ++ a.name ++ a.beforeEquals ++ [61] ++ a.afterEquals ++ [a.quote] ++ a.raw ++ [a.quote]

def Tag.render (tag : Tag) : Str := tag.name ++ tag.attributes.flatMap Attribute.render ++ tag.after

def Token.render : Token → Str
  | .text raw => raw
  | .comment body => str "<!--" ++ body ++ str "-->"
  | .cdata body => str "<![CDATA[" ++ body ++ str "]]>"
  | .instruction body => str "<?" ++ body ++ str "?>"
  | .doctype body => str "<!DOCTYPE" ++ body ++ str ">"
  | .opening tag => str "<" ++ tag.render ++ str ">"
  | .empty tag => str "<" ++ tag.render ++ str "/>"
  | .closing name after => str "</" ++ name ++ after ++ str ">"

def render (tokens : List Token) : Str := tokens.flatMap Token.render

/-- What follows an ampersand: the code point it stands for, and the rest. -/
def readReference (s : Str) : Option (ℕ × Str) :=
  let body := s.takeWhile (· ≠ 59)
  match s.drop body.length with
  | [] => none
  | _ :: rest =>
    let code : Option ℕ :=
      if body = str "lt" then some 60
      else if body = str "gt" then some 62
      else if body = str "amp" then some 38
      else if body = str "quot" then some 34
      else if body = str "apos" then some 39
      else match body with
        | 35 :: 120 :: digits => digits.foldlM (fun n c =>
            if 48 ≤ c ∧ c ≤ 57 then some (16 * n + (c - 48))
            else if 65 ≤ c ∧ c ≤ 70 then some (16 * n + (c - 55))
            else if 97 ≤ c ∧ c ≤ 102 then some (16 * n + (c - 87)) else none) 0
        | 35 :: digits => digits.foldlM (fun n c => if 48 ≤ c ∧ c ≤ 57 then some (10 * n + (c - 48)) else none) 0
        | _ => none
    code.map fun c => (c, rest)

def decodeFrom : ℕ → Str → Str
  | 0, _ => []
  | _, [] => []
  | n + 1, 13 :: 10 :: rest => 32 :: decodeFrom n rest
  | n + 1, c :: rest =>
    if c = 9 ∨ c = 10 ∨ c = 13 then 32 :: decodeFrom n rest
    else if c = 38 then
      match readReference rest with
      | some (code, rest) => code :: decodeFrom n rest
      | none => c :: decodeFrom n rest
    else c :: decodeFrom n rest

/-- The value of an attribute: every line break and tab is a space, and every reference is
what it stands for. -/
def decode (raw : Str) : Str := decodeFrom raw.length raw

structure Attribute.WellFormed (a : Attribute) : Prop where
  before : a.before ≠ [] ∧ ∀ c ∈ a.before, isBlank c = true
  name : IsName a.name
  spaces : ∀ c ∈ a.beforeEquals ++ a.afterEquals, isBlank c = true
  quote : a.quote = 34 ∨ a.quote = 39
  raw : ∀ c ∈ a.raw, c ≠ 60 ∧ c ≠ a.quote

structure Tag.WellFormed (tag : Tag) : Prop where
  name : IsName tag.name
  attributes : ∀ a ∈ tag.attributes, a.WellFormed
  unique : (tag.attributes.map Attribute.name).Nodup
  after : ∀ c ∈ tag.after, isBlank c = true

def Token.WellFormed : Token → Prop
  | .text raw => ∀ c ∈ raw, c ≠ 60
  | .opening tag => tag.WellFormed
  | .empty tag => tag.WellFormed
  | .closing name after => IsName name ∧ ∀ c ∈ after, isBlank c = true
  | _ => True

/-- Every closing tag has the name of the last opening tag that is not closed yet. -/
def Balanced : List Str → List Token → Prop
  | open_, [] => open_ = []
  | open_, .opening tag :: rest => Balanced (tag.name :: open_) rest
  | open_, .closing name _ :: rest => ∃ outer, open_ = name :: outer ∧ Balanced outer rest
  | open_, _ :: rest => Balanced open_ rest

/-- What the parser reads from a text is a well-formed document that is written so. -/
def ReadsWellFormed (parse : Str → Option (List Token)) : Prop :=
  ∀ s tokens, parse s = some tokens → render tokens = s ∧ (∀ t ∈ tokens, t.WellFormed) ∧ Balanced [] tokens

/-! ## Elements as they are read -/

/-- The namespaces that are bound where an element stands. -/
structure Scope where
  default : Str
  prefixes : List (Str × Str)

def Scope.initial : Scope := ⟨[], [(str "xml", str "http://www.w3.org/XML/1998/namespace")]⟩

/-- A prefix, if there is one, and the name after it. -/
def splitName (name : Str) : Option Str × Str :=
  match name.drop (name.takeWhile (· ≠ 58)).length with
  | [] => (none, name)
  | _ :: local_ => (some (name.takeWhile (· ≠ 58)), local_)

/-- The prefix that an attribute declares. -/
def Attribute.declares (a : Attribute) : Option Str :=
  match splitName a.name with
  | (some first, second) => if first = str "xmlns" then some second else none
  | (none, _) => none

def Attribute.isDeclaration (a : Attribute) : Bool := a.name = str "xmlns" ∨ a.declares.isSome

def Scope.extend (scope : Scope) (attributes : List Attribute) : Scope where
  default := ((attributes.find? fun a => a.name = str "xmlns").map fun a => decode a.raw).getD scope.default
  prefixes := attributes.filterMap (fun a => a.declares.map fun declared => (declared, decode a.raw)) ++ scope.prefixes

/-- A name in a namespace, as ElementTree writes it. -/
def fixName (space name : Str) : Str := if space = [] then name else [123] ++ space ++ [125] ++ name

def Scope.elementName (scope : Scope) (name : Str) : Option Str :=
  match splitName name with
  | (none, name) => some (fixName scope.default name)
  | (some first, second) => (scope.prefixes.lookup first).map fun space => fixName space second

def Scope.attributeName (scope : Scope) (name : Str) : Option Str :=
  match splitName name with
  | (none, name) => some name
  | (some first, second) => (scope.prefixes.lookup first).map fun space => fixName space second

structure Element where
  tag : Str
  attrib : List (Str × Str)
  deriving DecidableEq

def Scope.element (scope : Scope) (tag : Tag) : Option Element := do
  let name ← scope.elementName tag.name
  let attrib ← (tag.attributes.filter fun a => !a.isDeclaration).mapM fun a =>
    (scope.attributeName a.name).map fun key => (key, decode a.raw)
  return ⟨name, attrib⟩

/-- The elements in the order of the document; none where a prefix is not bound. -/
def resolve : List Scope → List Token → Option (List Element)
  | _, [] => some []
  | scopes, .opening tag :: rest => do
    let scope := (scopes.head?.getD .initial).extend tag.attributes
    let element ← scope.element tag
    return element :: (← resolve (scope :: scopes) rest)
  | scopes, .empty tag :: rest => do
    let element ← ((scopes.head?.getD .initial).extend tag.attributes).element tag
    return element :: (← resolve scopes rest)
  | scopes, .closing _ _ :: rest => resolve scopes.tail rest
  | scopes, _ :: rest => resolve scopes rest

/-! ## The check -/

inductive Issue where
  | figureNotText
  | figureTooLong (maxLength : ℕ)
  | figureForbiddenMarkup
  | figureMalformed
  | figureRootNotSvg
  | figureElementNotAllowed (element : Str)
  | figureAttributeNotAllowed (name : Str)
  | figureReferenceOutside (name : Str)
  deriving DecidableEq

/-- The parser, and what is a letter or a digit. -/
structure Library where
  parse : Str → Option (List Token)
  isAlnum : ℕ → Bool

/-- `ET.fromstring(svg).iter()` -/
def fromstring (lib : Library) (svg : Str) : Option (List Element) := (lib.parse svg).bind (resolve [])

/-- The text begins with a word, in any letter case. -/
def beginsWith : Str → Str → Bool
  | [], _ => true
  | l :: word, c :: s => AskPrompt.sameLetter l c && beginsWith word s
  | _ :: _, [] => false

/-- `_FORBIDDEN_TEXT` -/
def FORBIDDEN_TEXT : List Str := ["<!DOCTYPE", "<!ENTITY", "<?", "javascript:", "data:", "expression("].map str

def hasForbiddenText (svg : Str) : Bool := svg.tails.any fun s => FORBIDDEN_TEXT.any fun word => beginsWith word s

/-- `_MENTIONS_URL.search` -/
def mentionsUrl (value : Str) : Bool :=
  value.tails.any fun s => beginsWith (str "url") s && ((s.drop 3).dropWhile PyText.isSpace).head? = some 40

/-- `_LOCAL_REFERENCE.fullmatch`: the identifier that is referred to. -/
def localReference (isAlnum : ℕ → Bool) (value : Str) : Option Str :=
  if str "url(#" <+: value ∧ value.getLast? = some 41 then
    match (value.drop 5).dropLast with
    | [] => none
    | c :: rest =>
      if (c = 95 ∨ (65 ≤ c ∧ c ≤ 90) ∨ (97 ≤ c ∧ c ≤ 122)) ∧
          ∀ d ∈ rest, AskPrompt.isWord isAlnum d = true ∨ d = 46 ∨ d = 45 then some (c :: rest)
      else none
  else none

/-- `_name` -/
def splitTag (tag : Str) : Str × Str :=
  match tag with
  | 123 :: rest => (rest.takeWhile (· ≠ 125), (rest.drop (rest.takeWhile (· ≠ 125)).length).tail)
  | _ => ([], tag)

/-- The value holds a backslash or mentions a URL. -/
def needsCare (value : Str) : Bool := 92 ∈ value ∨ mentionsUrl value

/-- `_refers_out` -/
def refersOut (isAlnum : ℕ → Bool) (attr value : Str) (ids : List Str) : Bool :=
  if attr = str "aria-label" ∨ !needsCare value then false
  else match localReference isAlnum (PyText.strip value) with
    | none => true
    | some id => id ∉ ids

def idsOf (elements : List Element) : List Str := elements.filterMap fun element => element.attrib.lookup (str "id")

def attributeIssues (isAlnum : ℕ → Bool) (ids : List Str) (entry : Str × Str) : List Issue :=
  let name := splitTag entry.1
  if name.1 ≠ [] ∨ name.2 ∉ ATTRIBUTES then [.figureAttributeNotAllowed name.2]
  else if refersOut isAlnum name.2 entry.2 ids then [.figureReferenceOutside name.2]
  else []

def elementIssues (isAlnum : ℕ → Bool) (ids : List Str) (element : Element) : List Issue :=
  let name := splitTag element.tag
  if name.1 ≠ SVG_NAMESPACE ∨ name.2 ∉ ELEMENTS then [.figureElementNotAllowed name.2]
  else element.attrib.flatMap (attributeIssues isAlnum ids)

/-- `figure_issues`, of a text. -/
def figureIssues (lib : Library) (svg : Str) : List Issue :=
  if PyText.strip svg = [] then [.figureNotText]
  else if MAX_FIGURE_LENGTH < svg.length then [.figureTooLong MAX_FIGURE_LENGTH]
  else if hasForbiddenText svg then [.figureForbiddenMarkup]
  else match fromstring lib svg with
    | none => [.figureMalformed]
    | some elements =>
      let root := if (elements.head?.map fun element => splitTag element.tag) = some (SVG_NAMESPACE, str "svg") then []
        else [.figureRootNotSvg]
      (root ++ elements.flatMap (elementIssues lib.isAlnum (idsOf elements))).dedup

end Stoa.Figure
