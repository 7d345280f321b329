/-
  SessionLog/Transcript/Entry.lean
  ================================
  **The entries of a transcript.**

  A transcript is a text with one JSON record in a line. Of a record only the time
  stamp, the message and the token usage are read, and each of them may be missing
  or null. A line that is no such record is passed over: it is as if it were not
  there.
-/
import SessionLog.Json.Record
import SessionLog.Text.Blank
import SessionLog.Text.Split
import SessionLog.Tokens

namespace SessionLog.Transcript

/-! ### Records -/

structure Usage where
  input : Option UInt64
  output : Option UInt64
  cacheRead : Option UInt64
  cacheCreation : Option UInt64
deriving DecidableEq, Repr

structure Message where
  role : Option String
  content : Option Json
  model : Option String
  usage : Option Usage
deriving Repr, BEq

structure Entry where
  stamp : Option String
  message : Option Message
  usage : Option Usage
deriving Repr, BEq

/-! ### Reading -/

namespace Usage

def ofRaw? (raw : Raw) : Option Usage := do
  let fields ← Fields.ofRaw? ["input_tokens", "output_tokens", "cache_read_input_tokens",
    "cache_creation_input_tokens"] raw
  let input ← fields.withDefault? "input_tokens" none (Raw.nullable? Raw.uint64?)
  let output ← fields.withDefault? "output_tokens" none (Raw.nullable? Raw.uint64?)
  let cacheRead ←
    fields.withDefault? "cache_read_input_tokens" none (Raw.nullable? Raw.uint64?)
  let cacheCreation ←
    fields.withDefault? "cache_creation_input_tokens" none (Raw.nullable? Raw.uint64?)
  return ⟨input, output, cacheRead, cacheCreation⟩

end Usage

namespace Message

/-- How deep the content may nest: the entry and the message are around it. -/
def contentDepth : Nat := Json.maxDepth - 2

def ofRaw? (raw : Raw) : Option Message := do
  let fields ← Fields.ofRaw? ["role", "content", "model", "usage"] raw
  let role ← fields.withDefault? "role" none (Raw.nullable? Raw.string?)
  let content ←
    fields.withDefault? "content" none (Raw.nullable? (Raw.toJson? contentDepth))
  let model ← fields.withDefault? "model" none (Raw.nullable? Raw.string?)
  let usage ← fields.withDefault? "usage" none (Raw.nullable? Usage.ofRaw?)
  return ⟨role, content, model, usage⟩

end Message

namespace Entry

def ofRaw? (raw : Raw) : Option Entry := do
  let fields ← Fields.ofRaw? ["timestamp", "message", "usage"] raw
  let stamp ← fields.withDefault? "timestamp" none (Raw.nullable? Raw.string?)
  let message ← fields.withDefault? "message" none (Raw.nullable? Message.ofRaw?)
  let usage ← fields.withDefault? "usage" none (Raw.nullable? Usage.ofRaw?)
  return ⟨stamp, message, usage⟩

def parse? (line : List Char) : Option Entry := (Raw.parse? (Text.trim line)).bind ofRaw?

end Entry

def entries (content : List Char) : List Entry :=
  (Text.readLines content).filterMap Entry.parse?

/-! ### What an entry says -/

namespace Usage

def isEmpty (usage : Usage) : Bool :=
  usage.input.isNone && usage.output.isNone && usage.cacheRead.isNone
    && usage.cacheCreation.isNone

def tokens (usage : Usage) : Tokens :=
  ⟨usage.input.getD 0, usage.output.getD 0, usage.cacheRead.getD 0,
    usage.cacheCreation.getD 0⟩

/-- The context of the answer: what went in, fresh or from the cache. -/
def contextTokens (usage : Usage) : UInt64 :=
  Tokens.addCount usage.tokens.input usage.tokens.cacheRead

end Usage

namespace Entry

def stampText (entry : Entry) : String := entry.stamp.getD ""

/-- The usage of the entry, or that of its message; one without any count is as good
    as none. -/
def usage? (entry : Entry) : Option Usage :=
  match entry.usage.filter fun usage => !usage.isEmpty with
  | some usage => some usage
  | none => (entry.message.bind Message.usage).filter fun usage => !usage.isEmpty

def model? (entry : Entry) : Option String :=
  (entry.message.bind Message.model).filter fun model => model ≠ ""

def blockText? (block : Json) : Option String :=
  if (block.get? "type").bind Json.string? = some "text" then
    (block.get? "text").bind Json.string?
  else none

/-- All the text of some blocks, without blanks at its ends. -/
def joinedText (blocks : List Json) : List Char :=
  Text.trim ((blocks.filterMap blockText?).flatMap String.toList)

/-- What the assistant said in the entry, unless it is nothing. -/
def assistantText? (entry : Entry) : Option String := do
  let message ← entry.message
  if message.role = some "assistant" then
    let blocks ← message.content.bind Json.items?
    match joinedText blocks with
    | [] => none
    | text => return String.ofList text
  else none

end Entry

end SessionLog.Transcript
