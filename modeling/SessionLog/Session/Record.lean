/-
  SessionLog/Session/Record.lean
  ==============================
  **Sessions as JSON records.**

  Every field is written, in the order of the record. To be read, a record needs
  its start only: any other field has a value for want of it. The markers and the
  model may also be null.
-/
import SessionLog.Calendar.Parser
import SessionLog.Calendar.Printer
import SessionLog.Json.Printer
import SessionLog.Session

namespace SessionLog

/-! ### Times -/

namespace DateTime

def toJson (t : DateTime) : Json := .string (String.ofList t.text)

def ofJson? (value : Json) : Option DateTime :=
  value.string?.bind fun text => parse? text.toList

end DateTime

/-! ### Markers -/

namespace PendingTool

def toJson (pending : PendingTool) : Json :=
  .object [("ts", pending.time.toJson), ("tool", .string pending.name),
    ("input", .string pending.input)]

def ofJson? (value : Json) : Option PendingTool := do
  let fields ← Fields.ofJson? ["ts", "tool", "input"] value
  let time ← fields.required? "ts" DateTime.ofJson?
  let name ← fields.required? "tool" Json.string?
  let input ← fields.withDefault? "input" "" Json.string?
  return ⟨time, name, input⟩

end PendingTool

namespace PendingSubagent

def toJson (pending : PendingSubagent) : Json :=
  .object [("type", .string pending.kind), ("start_time", pending.since.toJson)]

def ofJson? (value : Json) : Option PendingSubagent := do
  let fields ← Fields.ofJson? ["type", "start_time"] value
  let kind ← fields.required? "type" Json.string?
  let since ← fields.required? "start_time" DateTime.ofJson?
  return ⟨kind, since⟩

end PendingSubagent

/-! ### Sessions -/

namespace Json

def ofOption {α : Type} (write : α → Json) : Option α → Json
  | none => .null
  | some a => write a

def uint32? (value : Json) : Option UInt32 :=
  value.uint64?.bind fun n =>
    if n.toNat < UInt32.size then some (UInt32.ofNat n.toNat) else none

end Json

namespace Session

def fieldNames : List String :=
  ["version", "start_time", "session_id", "transcript_path", "project_root", "timeline",
    "pending_tool", "pending_subagent", "files_modified", "error_count", "tokens",
    "context_tokens", "model", "last_processed_timestamp"]

def toJson (s : Session) : Json :=
  .object [
    ("version", .number (.integer s.version.toNat)),
    ("start_time", s.start.toJson),
    ("session_id", .string s.id),
    ("transcript_path", .string s.transcriptPath),
    ("project_root", .string s.projectRoot),
    ("timeline", .array (s.timeline.map TimelineEntry.toJson)),
    ("pending_tool", .ofOption PendingTool.toJson s.pendingTool),
    ("pending_subagent", .ofOption PendingSubagent.toJson s.pendingSubagent),
    ("files_modified", .array (s.filesModified.map .string)),
    ("error_count", .ofUInt64 s.errorCount),
    ("tokens", s.tokens.toJson),
    ("context_tokens", .ofUInt64 s.contextTokens),
    ("model", .ofOption .string s.model),
    ("last_processed_timestamp", .string s.watermark)]

def ofJson? (value : Json) : Option Session := do
  let fields ← Fields.ofJson? fieldNames value
  let version ← fields.withDefault? "version" currentVersion Json.uint32?
  let start ← fields.required? "start_time" DateTime.ofJson?
  let id ← fields.withDefault? "session_id" "" Json.string?
  let transcriptPath ← fields.withDefault? "transcript_path" "" Json.string?
  let projectRoot ← fields.withDefault? "project_root" "" Json.string?
  let timeline ← fields.withDefault? "timeline" [] (Json.list? TimelineEntry.ofJson?)
  let pendingTool ←
    fields.withDefault? "pending_tool" none (Json.nullable? PendingTool.ofJson?)
  let pendingSubagent ←
    fields.withDefault? "pending_subagent" none (Json.nullable? PendingSubagent.ofJson?)
  let filesModified ← fields.withDefault? "files_modified" [] (Json.list? Json.string?)
  let errorCount ← fields.withDefault? "error_count" 0 Json.uint64?
  let tokens ← fields.withDefault? "tokens" .zero Tokens.ofJson?
  let contextTokens ← fields.withDefault? "context_tokens" 0 Json.uint64?
  let model ← fields.withDefault? "model" none (Json.nullable? Json.string?)
  let watermark ← fields.withDefault? "last_processed_timestamp" "" Json.string?
  return {
    version, start, id, transcriptPath, projectRoot, timeline, pendingTool, pendingSubagent,
    filesModified, errorCount, tokens, contextTokens, model, watermark }

def text (s : Session) : List Char := s.toJson.render

end Session

end SessionLog
