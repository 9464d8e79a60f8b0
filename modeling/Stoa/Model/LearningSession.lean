import Mathlib
import Stoa.Data.Document
import Stoa.Data.JsonText
import Stoa.Model.Values

/-! # Learning sessions

The messages of a session: the row that one is appended as, the rows as they are read
back page by page, and the snapshot that a fingerprint proves. -/

namespace Stoa.LearningSession

open PyText (Str str)

/-! ## The row of a message -/

inductive Role where
  | student
  | assistant
  | teacher
  | system
  deriving DecidableEq, Repr

def Role.text : Role → String
  | student => "student"
  | assistant => "assistant"
  | teacher => "teacher"
  | system => "system"

/-- `ROLES` -/
def roles : List Role := [.student, .assistant, .teacher, .system]

def Role.ofText? (text : String) : Option Role := roles.find? fun role => role.text = text

def ENTITY_TYPE : String := "conversation_message"

def SCHEMA_VERSION : String := "conversation-message.v1"

def MESSAGE_PREFIX : String := "MSG#"

def convPk (conversationId : String) : String := "CONV#" ++ conversationId

def msgSk (messageId : String) : String := MESSAGE_PREFIX ++ messageId

inductive Refusal where
  /-- `AttachmentDecisionError` with `UPLOAD_SERVICE_UNAVAILABLE` -/
  | unavailable
  /-- A list or a mapping is looked up in a set. -/
  | unhashable
  deriving DecidableEq, Repr

/-- A member of a row that is a text. -/
def textOf? (row : Document) (name : String) : Option String := (row.get? name).bind Document.text?

/-- A member of a row that is a text other than the empty one. -/
def requiredTextOf? (row : Document) (name : String) : Option String := (textOf? row name).filter (· ≠ "")

/-- The keys of a row, and whose it is. -/
def HasKeys (conversationId : String) (ownerId : Option String) (item : Document) : Prop :=
  (∃ messageId ∈ requiredTextOf? item "message_id", textOf? item "SK" = some (msgSk messageId)) ∧
    textOf? item "PK" = some (convPk conversationId) ∧
    textOf? item "conversation_id" = some conversationId ∧
    (∀ owner ∈ ownerId, textOf? item "student_id" = some owner) ∧
    (requiredTextOf? item "student_id").isSome

/-- The rest of what a row has to hold. -/
def HasText (item : Document) : Prop :=
  (textOf? item "content").isSome ∧ (requiredTextOf? item "created_at").isSome ∧
    textOf? item "entity_type" = some ENTITY_TYPE ∧ textOf? item "schema_version" = some SCHEMA_VERSION

instance (conversationId : String) (ownerId : Option String) (item : Document) :
    Decidable (HasKeys conversationId ownerId item) := by
  unfold HasKeys
  infer_instance

instance (item : Document) : Decidable (HasText item) := by
  unfold HasText
  infer_instance

def isHashable : Option Document → Bool
  | some (.list _) => false
  | some (.map _) => false
  | _ => true

def validateMessageRow (conversationId : String) (ownerId : Option String) (item : Document) :
    Except Refusal Document :=
  if item.entries?.isNone ∨ ¬ HasKeys conversationId ownerId item then .error .unavailable
  else if isHashable (item.get? "role") = false then .error .unhashable
  else if ((textOf? item "role").bind Role.ofText?).isNone ∨ ¬ HasText item then .error .unavailable
  else .ok item

/-! ## Appending -/

/-- The keyword arguments that each role takes. -/
def Role.takes : Role → List String
  | student => ["attachment_ids", "quote"]
  | assistant => ["structured", "target_unit_id", "allowance"]
  | teacher => ["teacher_response_rich", "teacher_response_format", "author_name", "attachment_ids"]
  | system => ["system_event", "escalation_message"]

/-- Which of them it must be given. -/
def Role.requires : Role → List String
  | student => ["attachment_ids"]
  | assistant => ["structured"]
  | teacher => ["teacher_response_rich", "teacher_response_format"]
  | system => ["system_event"]

inductive AppendError where
  /-- `unknown role: …` -/
  | unknownRole (role : String)
  /-- `… message does not take […]` -/
  | doesNotTake (role : Role) (names : List String)
  /-- `… message requires […]` -/
  | isMissing (role : Role) (names : List String)
  /-- `AttachmentRepositoryConflict("conditional_conflict")` -/
  | conditionalConflict
  /-- `… must be a sequence of ids` -/
  | notASequence (field : String)
  /-- `allowance must be a mapping` -/
  | allowanceNotAMapping
  /-- `allowance may not set […]` -/
  | allowanceMayNotSet (names : List String)
  | refused (refusal : Refusal)
  deriving DecidableEq, Repr

/-- What `append` is called with, apart from the conversation. -/
structure Appended where
  role : String
  messageId : String
  studentId : String
  generation : ℤ
  content : String
  createdAt : String
  fields : List (String × Document)

/-- `fields.get(name)` where it is not `None`. -/
def Appended.field (m : Appended) (name : String) : Option Document :=
  (m.fields.lookup name).filter fun value => !value.isNull

/-- `fields[name]` of an argument that has to be there. -/
def Appended.requiredField (m : Appended) (name : String) : Document := (m.fields.lookup name).getD .null

def idList (value : Document) (field : String) : Except AppendError (List Document) :=
  match value with
  | .list items => .ok items
  | _ => .error (.notASequence field)

abbrev Row := List (String × Document)

/-- What every row is stamped with. -/
def stamps (conversationId : String) (role : Role) (m : Appended) : Row :=
  [("PK", .string (convPk conversationId)), ("SK", .string (msgSk m.messageId)),
    ("entity_type", .string ENTITY_TYPE), ("schema_version", .string SCHEMA_VERSION),
    ("message_id", .string m.messageId), ("conversation_id", .string conversationId),
    ("student_id", .string m.studentId), ("owner_id", .string m.studentId),
    ("account_fence_generation", .int m.generation), ("role", .string role.text),
    ("content", .string m.content), ("created_at", .string m.createdAt)]

/-- `row[name] = value` of a name that the row does not have, where there is a value. -/
def member (name : String) (value : Option Document) : Row := (value.map (Prod.mk name)).toList

def studentMembers (m : Appended) : Except AppendError Row := do
  let ids ← idList (m.requiredField "attachment_ids") "attachment_ids"
  return ("attachment_ids", .list ids) :: member "quote" (m.field "quote")

def allowanceMembers (row : Row) : Option Document → Except AppendError Row
  | none => .ok []
  | some (.map entries) =>
    let colliding := (entries.map Prod.fst).filter (· ∈ row.map Prod.fst)
    if colliding ≠ [] then .error (.allowanceMayNotSet (colliding.insertionSort (· ≤ ·))) else .ok entries
  | some _ => .error .allowanceNotAMapping

def assistantMembers (stamps : Row) (m : Appended) : Except AppendError Row := do
  let members := ("structured", m.requiredField "structured") ::
    member "target_unit_id" ((m.fields.lookup "target_unit_id").filter Document.isTrue)
  return members ++ (← allowanceMembers (stamps ++ members) (m.field "allowance"))

/-- The name of a teacher as it is stored: stripped, and not blank. -/
def authorName (value : Document) : Option String :=
  (value.text?.map fun text => String.ofList (strip text.toList)).filter (· ≠ "")

def teacherMembers (m : Appended) : Except AppendError Row := do
  let members := [("teacher_response_rich", m.requiredField "teacher_response_rich"),
    ("teacher_response_format", m.requiredField "teacher_response_format")] ++
    member "author_name" (((m.fields.lookup "author_name").bind authorName).map .string)
  match m.field "attachment_ids" with
  | none => return members
  | some value => return members ++ [("attachment_ids", .list (← idList value "attachment_ids"))]

def systemMembers (m : Appended) : Row :=
  [("system_event", m.requiredField "system_event"),
    ("escalation_message", m.requiredField "escalation_message")]

/-- The members that each role adds. -/
def roleMembers (stamps : Row) (m : Appended) : Role → Except AppendError Row
  | .student => studentMembers m
  | .assistant => assistantMembers stamps m
  | .teacher => teacherMembers m
  | .system => .ok (systemMembers m)

/-- A conditional put. -/
structure Put where
  item : Document
  conditionExpression : String

def NEW_ROW_CONDITION : String := "attribute_not_exists(PK) AND attribute_not_exists(SK)"

def append (conversationId : String) (m : Appended) : Except AppendError Put :=
  match Role.ofText? m.role with
  | none => .error (.unknownRole m.role)
  | some role =>
    let names := m.fields.map Prod.fst
    let unexpected := names.filter (· ∉ role.takes)
    let missing := role.requires.filter (· ∉ names)
    if unexpected ≠ [] then .error (.doesNotTake role (unexpected.insertionSort (· ≤ ·)))
    else if missing ≠ [] then .error (.isMissing role (missing.insertionSort (· ≤ ·)))
    else if m.studentId = "" ∨ m.generation ≤ 0 then .error .conditionalConflict
    else do
      let members ← roleMembers (stamps conversationId role m) m role
      let row ← (validateMessageRow conversationId (some m.studentId)
        (.map (stamps conversationId role m ++ members))).mapError .refused
      return ⟨row, NEW_ROW_CONDITION⟩

/-! ## The table -/

/-- The rows of a table. -/
abbrev Table := List Document

def sameKey (a b : Document) : Bool :=
  textOf? a "PK" = textOf? b "PK" && textOf? a "SK" = textOf? b "SK"

/-- The put of a new row: it is refused where there is a row with its key. -/
def Put.commit (put : Put) (table : Table) : Option Table :=
  if table.any (sameKey put.item) then none else some (table ++ [put.item.stored])

/-- The rows that a query of a session's messages matches. -/
def messageRows (conversationId : String) (table : Table) : List Document :=
  table.filter fun row => textOf? row "PK" = some (convPk conversationId) &&
    (textOf? row "SK").any fun key => MESSAGE_PREFIX.toList <+: key.toList

/-! ## Reading -/

/-- The pages that follow, after the rows that were read. A query of the table answers
with the page after a key. -/
def readPages (messagePage : Option Document → Document) (conversationId : String) (ownerId : Option String) :
    ℕ → Option Document → List Document → Except Refusal (List Document)
  | 0, _, _ => .error .unavailable
  | pages + 1, cursor, items =>
    match (messagePage cursor).entries?, ((messagePage cursor).get? "Items").getD (.list []) with
    | some _, .list page => do
      let items := items ++ (← page.mapM (validateMessageRow conversationId ownerId))
      if 2000 < items.length then .error .unavailable
      else
        match (messagePage cursor).get? "LastEvaluatedKey" with
        | none => .ok items
        | some .null => .ok items
        | some (.map (entry :: entries)) =>
          readPages messagePage conversationId ownerId pages (some (.map (entry :: entries))) items
        | some _ => .error .unavailable
    | _, _ => .error .unavailable

/-- `row[name]` of a checked row. -/
def textOf (row : Document) (name : String) : String := (textOf? row name).getD ""

def messageId (row : Document) : String := textOf row "message_id"

/-- What the messages are ordered by. -/
def orderKey (row : Document) : String ×ₗ String := toLex (textOf row "created_at", messageId row)

def inOrder (items : List Document) : List Document := items.insertionSort fun a b => orderKey a ≤ orderKey b

/-- What a fingerprint is made of, by name. -/
def projected : List String :=
  ["content", "conversation_id", "created_at", "message_id", "role", "student_id"]

def projection (rows : List Document) : JsonText.Value :=
  .arr (rows.map fun row => .obj (projected.map fun name => (str name, .str (str (textOf row name)))))

section

variable (sha256 : Str → String)

/-- `_history_snapshot_fingerprint`, by what a text is hashed to. -/
def historyFingerprint (rows : List Document) : String := sha256 (JsonText.dumps [] (projection rows))

/-- What a snapshot may be asked for by. -/
def IsSnapshot (messageIds : List String) (fingerprint : String) : Prop :=
  (∀ id ∈ messageIds, id ≠ "") ∧ messageIds.Nodup ∧ fingerprint.toList.length = 64 ∧
    ∀ c ∈ fingerprint.toList, isLowerHex c = true

instance (messageIds : List String) (fingerprint : String) : Decidable (IsSnapshot messageIds fingerprint) := by
  unfold IsSnapshot
  infer_instance

variable (messagePage : Option Document → Document) (conversationId : String)

/-- `_load_anchored_message_history` without a snapshot. -/
def historyRows : Except Refusal (List Document) := do
  let ordered := inOrder (← readPages messagePage conversationId none 64 none [])
  if (ordered.map messageId).Nodup then .ok ordered else .error .unavailable

/-- `_load_anchored_message_history` of a snapshot: the rows that it names, in its order. -/
def anchoredHistory (ownerId : String) (messageIds : List String) (fingerprint : String) :
    Except Refusal (List Document) :=
  if ¬ IsSnapshot messageIds fingerprint then .error .unavailable
  else do
    let ordered := inOrder (← readPages messagePage conversationId (some ownerId) 64 none [])
    let selected := ordered.filter fun row => messageId row ∈ messageIds
    if ¬ (selected.map messageId).Nodup then .error .unavailable
    else if ¬ ∀ id ∈ messageIds, id ∈ selected.map messageId then .error .unavailable
    else
      let snapshot := messageIds.filterMap fun id => selected.find? fun row => messageId row = id
      if historyFingerprint sha256 snapshot ≠ fingerprint then .error .unavailable else .ok snapshot

end

/-! ## Messages -/

/-- One stored message of a learning session, whoever wrote it. -/
structure Message where
  id : String
  conversationId : String
  studentId : String
  role : String
  content : String
  createdAt : String
  status : String
  attachmentIds : List String
  authorName : Option String
  teacherResponseRich : Option Row
  teacherResponseFormat : Option String
  quote : Document
  structured : Document
  targetUnitId : Option String
  systemEvent : Option String

section

-- the text that Python writes for a value that is no text itself
variable (repr : Document → String)

/-- `str` -/
def idText : Document → String
  | .string text => text
  | value => repr value

def messageFromRow (row : Document) : Message where
  id := messageId row
  conversationId := textOf row "conversation_id"
  studentId := textOf row "student_id"
  role := textOf row "role"
  content := textOf row "content"
  createdAt := textOf row "created_at"
  status := "sent"
  attachmentIds := (((row.get? "attachment_ids").bind Document.items?).getD []).map (idText repr)
  authorName := textOf? row "author_name"
  teacherResponseRich := (row.get? "teacher_response_rich").bind Document.entries?
  teacherResponseFormat := textOf? row "teacher_response_format"
  quote := (row.get? "quote").getD .null
  structured := (row.get? "structured").getD .null
  targetUnitId := textOf? row "target_unit_id"
  systemEvent := textOf? row "system_event"

def history (messagePage : Option Document → Document) (conversationId : String) :
    Except Refusal (List Message) := do
  return (← historyRows messagePage conversationId).map (messageFromRow repr)

end

end Stoa.LearningSession
