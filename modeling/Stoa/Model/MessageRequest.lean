import Stoa.Data.Framing
import Stoa.Model.MessageCommand

/-! # Message requests and their fingerprint

What a message may be sent as, and the bytes by which a request is recognised when
it is sent again. -/

namespace Stoa.AskQuestion

open Framing

/-! ## Requests -/

/-- An id that says nothing of what it names. -/
structure OpaqueId where
  val : String
  bounds : 1 ≤ val.length ∧ val.length ≤ 200
  deriving DecidableEq

/-- A validated upload, or a saved attachment. -/
structure AttachmentReference where
  uploadId : Option OpaqueId
  attachmentId : Option OpaqueId
  exactlyOne : uploadId.isNone ≠ attachmentId.isNone
  deriving DecidableEq

def AttachmentReference.identity (reference : AttachmentReference) : String × Option String :=
  match reference.uploadId with
  | some upload => ("upload", some upload.val)
  | none => ("attachment", reference.attachmentId.map OpaqueId.val)

/-- The id of a stored exercise, lesson or unit. -/
structure ContentId where
  val : String
  bounds : 1 ≤ val.length ∧ val.length ≤ 128
  deriving DecidableEq

/-- The exercise a question is asked beside. -/
structure PracticeContextReference where
  challengeId : ContentId
  lessonId : ContentId
  unitId : ContentId
  deriving DecidableEq

inductive AnswerSection where
  | steps
  | answer
  | hints
  | similarExercises
  | knowledgePoints
  deriving DecidableEq, Repr

def AnswerSection.text : AnswerSection → String
  | .steps => "steps"
  | .answer => "answer"
  | .hints => "hints"
  | .similarExercises => "similarExercises"
  | .knowledgePoints => "knowledgePoints"

/-- The section of an answer that a quote was taken from. `index` names an entry of a
list section, and only of one. -/
structure MessageQuotePart where
  section_ : AnswerSection
  index : Option ℕ
  indexBound : ∀ i ∈ index, i ≤ 99
  indexMatchesSection : section_ = .answer ↔ index = none
  deriving DecidableEq

inductive QuoteKind where
  | challenge
  | message
  deriving DecidableEq, Repr

def QuoteKind.text : QuoteKind → String
  | .challenge => "challenge"
  | .message => "message"

structure MessageQuoteSource where
  kind : QuoteKind
  id : ContentId
  part : Option MessageQuotePart
  partOnlyOfAMessage : part.isSome → kind = .message
  deriving DecidableEq

def QUOTE_MAX_CHARS : ℕ := 500

/-- A passage that the student is asking about. -/
structure MessageQuote where
  text : String
  bounds : 1 ≤ text.length ∧ text.length ≤ QUOTE_MAX_CHARS
  source : MessageQuoteSource
  deriving DecidableEq

def isIdempotencyKeyChar (c : Char) : Bool :=
  c.isAlphanum || c ∈ ['.', '_', '~', '-']

structure SendMessageRequest where
  content : String
  idempotencyKey : String
  keyBounds : 1 ≤ idempotencyKey.length ∧ idempotencyKey.length ≤ 64
  keyPattern : idempotencyKey.toList.all isIdempotencyKeyChar = true
  attachmentIds : Option (List AttachmentReference)
  practiceContext : Option PracticeContextReference
  quote : Option MessageQuote
  /-- Omitted, or one to eight references that are all different. -/
  uniqueAttachments : ∀ references ∈ attachmentIds, references ≠ [] ∧ references.length ≤ 8 ∧
    (references.map AttachmentReference.identity).Nodup

/-! ## Bytes -/

/-- `b"stoa.conversation.send.v1"` -/
def FINGERPRINT_PREFIX : Bytes := utf8 "stoa.conversation.send.v1"

/-- `str(reference.upload_id or reference.attachment_id)` -/
def AttachmentReference.opaqueId (reference : AttachmentReference) : String :=
  match reference.uploadId with
  | some upload => upload.val
  | none =>
    match reference.attachmentId with
    | some attachment => attachment.val
    | none => "None"

def referenceBytes (reference : AttachmentReference) : Option Bytes := do
  let typeByte : UInt8 := if reference.uploadId.isSome then 1 else 2
  return typeByte :: (← frame reference.opaqueId)

def contextBytes : Option PracticeContextReference → Option Bytes
  | none => some []
  | some context => do
    let challenge ← frame context.challengeId.val
    let lesson ← frame context.lessonId.val
    let unit ← frame context.unitId.val
    return 0x10 :: (challenge ++ (lesson ++ unit))

def partBytes : Option MessageQuotePart → Option Bytes
  | none => some []
  | some part => do
    let name ← frame part.section_.text
    let index ← packSigned (part.index.elim (-1) fun i => (i : ℤ))
    return 0x12 :: (name ++ index)

def quoteBytes : Option MessageQuote → Option Bytes
  | none => some []
  | some quote => do
    let text ← frame quote.text
    let kind ← frame quote.source.kind.text
    let id ← frame quote.source.id.val
    let part ← partBytes quote.source.part
    return 0x11 :: (text ++ (kind ++ (id ++ part)))

/-- The bytes that `message_request_fingerprint` hashes; none where a length is too
long to be packed. -/
def messageRequestBytes (body : SendMessageRequest) : Option Bytes := do
  let content ← frame body.content
  let references ← counted referenceBytes (body.attachmentIds.getD [])
  let context ← contextBytes body.practiceContext
  let quote ← quoteBytes body.quote
  return FINGERPRINT_PREFIX ++ (content ++ (references ++ (context ++ quote)))

def messageRequestFingerprint (sha256 : Bytes → String) (body : SendMessageRequest) : Option String :=
  (messageRequestBytes body).map sha256

end Stoa.AskQuestion
