import Stoa.Model.AskPrompt

/-! # The reply of the model

A reply is one JSON object. Its steps are shown while it still comes in, and it is checked
for terms that no student should read when it is there. -/

namespace Stoa.AiReply

open PyText JsonText

inductive Raised where
  | malformedResponse
  | deadlineExceeded
  /-- What the reply is used for does not fit its shape. -/
  | other
  deriving DecidableEq

/-! ## Steps of a reply that is not complete -/

/-- `_STEP_PATTERN` -/
def STEP_PATTERN : Regex := .all [
  .one (· = 34),
  .group (.star (.alt (.one fun c => c ≠ 34 && c ≠ 92) (.seq (.one (· = 92)) (.one (· ≠ 10))))),
  .one (· = 34),
  .star (.one PyText.isSpace),
  .one fun c => c = 44 || c = 93]

/-- What comes after the first occurrence of a text. -/
def afterFirst (part : Str) : Str → Option Str
  | [] => if part = [] then some [] else none
  | c :: s => if part <+: c :: s then some ((c :: s).drop part.length) else afterFirst part s

/-- `"steps"`, with its quotes. -/
def STEPS_KEY : Str := 34 :: str "steps" ++ [34]

/-- The loop of `completed_steps` over the matches. -/
def stepsOf : List (Regex.Cursor × Regex.Cursor) → List Str
  | [] => []
  | (c, d) :: rest =>
    match loads (34 :: d.group ++ [34]) with
    | some (.str step) =>
      step :: if ((c.between d).reverse.dropWhile PyText.isSpace).head? = some 93 then [] else stepsOf rest
    | _ => []

def completedSteps (partialJson : Str) : List Str :=
  match afterFirst STEPS_KEY partialJson with
  | none => []
  | some tail =>
    match tail.dropWhile (· ≠ 91) with
    | [] => []
    | _ :: items => stepsOf (STEP_PATTERN.findIter items)

/-! ## The stream -/

/-- What an event of the stream brings. -/
inductive Event where
  | delta (text : Str)
  | other
  | malformed

/-- What has come in, and what `on_step` was told. -/
structure Streamed where
  rawText : Str := []
  reported : ℕ := 0
  calls : List (ℕ × Str) := []

/-- Some text comes in. -/
def Streamed.delta (s : Streamed) (text : Str) : Streamed :=
  let rawText := s.rawText ++ text
  let steps := completedSteps rawText
  { rawText
    reported := max s.reported steps.length
    calls := s.calls ++ ((steps.drop s.reported).zipIdx s.reported).map Prod.swap }

/-- `_strip_code_fence` -/
def stripCodeFence (text : Str) : Str :=
  let stripped := PyText.strip text
  let opened :=
    if str "```" <+: stripped then
      let body := stripped.drop 3
      (if str "json" <+: body then body.drop 4 else body).dropWhile PyText.isSpace
    else stripped
  if str "```" <:+ opened then ((opened.take (opened.length - 3)).reverse.dropWhile PyText.isSpace).reverse else opened

/-- `_looks_like_json_object` -/
def looksLikeJsonObject (text : Str) : Bool := (stripCodeFence text).head? = some 123

/-- From the first opening brace to the last closing one. -/
def embeddedObject (text : Str) : Option Str :=
  let object := ((text.dropWhile (· ≠ 123)).reverse.dropWhile (· ≠ 125)).reverse
  if object = [] then none else some object

/-- `_parse_ai_response` -/
def parseAiResponse (text : Str) : Except Raised Value :=
  match loads text with
  | some value => .ok value
  | none =>
    match loads (stripCodeFence text) with
    | some value => .ok value
    | none =>
      match (embeddedObject text).bind loads with
      | some value => .ok value
      | none =>
        if (stripCodeFence text).head? = some 123 then .error .malformedResponse
        else .ok (.obj [(str "steps", .arr []), (str "answer", .str text), (str "hints", .arr []),
          (str "similar_exercises", .arr []), (str "suggest_teacher", .bool false)])

/-! ## Checking a reply -/

/-- `_FORBIDDEN_OUTPUT_TERMS` -/
def FORBIDDEN_OUTPUT_TERMS : List Str := [
  str "anthropic", str "claude", str "bedrock", str "openai", str "gpt", str "llm",
  str "system prompt", str "ignore previous", str "harness", str "STOA internal"]

/-- `str.lower`, as far as letters of ASCII come from it: all others become none of them. -/
def lowerCode (c : ℕ) : Str :=
  if 65 ≤ c ∧ c ≤ 90 then [c + 32]
  else if c = 0x130 then [105, 0x307]
  else if c = 0x212a then [107]
  else [c]

def lower (s : Str) : Str := s.flatMap lowerCode

/-- The terms that the raw text has. -/
def leaked (rawText : Str) : List Str := FORBIDDEN_OUTPUT_TERMS.filter fun term => term <:+: lower rawText

/-- `re.sub(re.escape(term), "[AI]", text, flags=re.IGNORECASE)` -/
def redactTerm (text term : Str) : Str := (Regex.literal AskPrompt.sameLetter term).sub (str "[AI]") text

/-- What remains of the raw text, with the terms that were found in it replaced. -/
def redact (rawText : Str) : Str := (leaked rawText).foldl redactTerm rawText

/-- `" ".join(..)` has something to join. -/
def joinable : Value → Bool
  | .str _ => true
  | .obj _ => true
  | .arr items => items.all fun
    | .str _ => true
    | _ => false
  | _ => false

/-- `not value`, or nothing there. -/
def falsy : Option Value → Bool
  | none => true
  | some .null => true
  | some (.bool value) => !value
  | some (.int value) => value = 0
  | some (.float value) => value.isZero
  | some (.str value) => value = []
  | some (.arr items) => items.isEmpty
  | some (.obj members) => members.isEmpty

/-- `parsed["answer"] = raw_text` -/
def withAnswer (members : List (Str × Value)) (rawText : Str) : Value :=
  .obj (insertMember members (str "answer", .str rawText))

/-- The last of the checks of `_validate_output`. -/
def withStructure (parsed : Value) (rawText : Str) : Except Raised Value :=
  match parsed with
  | .obj members =>
    if falsy (parsed.get? (str "steps")) && falsy (parsed.get? (str "answer")) then
      if looksLikeJsonObject rawText then .error .malformedResponse else .ok (withAnswer members rawText)
    else .ok parsed
  | _ => .error .other

/-- A text can be added to it. -/
def addable : Value → Bool
  | .str _ => true
  | _ => false

/-- `_validate_output` -/
def validateOutput (parsed : Value) (rawText : Str) : Except Raised Value :=
  match parsed with
  | .obj _ =>
    if !(parsed.get? (str "steps")).all joinable || !(parsed.get? (str "answer")).all addable then .error .other
    else if leaked rawText = [] then withStructure parsed rawText
    else do withStructure (← parseAiResponse (redact rawText)) (redact rawText)
  | _ => .error .other

/-- The check of a reply that came in. -/
def checked (rawText : Str) : Except Raised Value := do validateOutput (← parseAiResponse rawText) rawText

end Stoa.AiReply
