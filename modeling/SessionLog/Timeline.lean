/-
  SessionLog/Timeline.lean
  ========================
  **What happened in a session, entry by entry.**

  An entry has a time stamp to the minute and says one of five things. As a record
  it names its kind under `type`, in front of its other fields; a tool that gave no
  output has no such field. Written as an array, an entry starts with its kind.
-/
import SessionLog.Json.Record

namespace SessionLog

inductive TimelineEntry where
  | prompt (ts content : String)
  | response (ts content : String)
  /-- A tool was used: one line about its input, and one about its output if there
      is anything to say of it. -/
  | tool (ts name input : String) (output : Option String)
  /-- A subagent was done after so many seconds. -/
  | subagent (ts subagentType : String) (seconds : Int64) (success : Bool)
  | permissionRequest (ts name input : String)
deriving DecidableEq, Repr

namespace TimelineEntry

def ts : TimelineEntry → String
  | .prompt ts _ => ts
  | .response ts _ => ts
  | .tool ts _ _ _ => ts
  | .subagent ts _ _ _ => ts
  | .permissionRequest ts _ _ => ts

/-! ### Writing -/

def outputField : Option String → List (String × Json)
  | none => []
  | some output => [("output", .string output)]

def toJson : TimelineEntry → Json
  | .prompt ts content =>
    .object [("type", .string "prompt"), ("ts", .string ts), ("content", .string content)]
  | .response ts content =>
    .object [("type", .string "response"), ("ts", .string ts), ("content", .string content)]
  | .tool ts name input output =>
    .object ([("type", .string "tool"), ("ts", .string ts), ("tool", .string name),
      ("input", .string input)] ++ outputField output)
  | .subagent ts subagentType seconds success =>
    .object [("type", .string "subagent"), ("ts", .string ts),
      ("subagent_type", .string subagentType), ("duration_sec", .ofInt64 seconds),
      ("success", .bool success)]
  | .permissionRequest ts name input =>
    .object [("type", .string "permission_request"), ("ts", .string ts),
      ("tool", .string name), ("input", .string input)]

/-! ### Reading -/

/-- The kind of an entry, and what is left to read of it. -/
def kind? : Json → Option (String × Json)
  | .object members => do
    let kind ← (members.lookup "type").bind Json.string?
    return (kind, .object members)
  | .array (first :: rest) => do
    let kind ← first.string?
    return (kind, .array rest)
  | _ => none

def content? (value : Json) : Option (String × String) := do
  let fields ← Fields.ofJson? ["ts", "content"] value
  let ts ← fields.required? "ts" Json.string?
  let content ← fields.required? "content" Json.string?
  return (ts, content)

def tool? (value : Json) : Option TimelineEntry := do
  let fields ← Fields.ofJson? ["ts", "tool", "input", "output"] value
  let ts ← fields.required? "ts" Json.string?
  let name ← fields.required? "tool" Json.string?
  let input ← fields.required? "input" Json.string?
  let output ← fields.withDefault? "output" none (Json.nullable? Json.string?)
  return .tool ts name input output

def subagent? (value : Json) : Option TimelineEntry := do
  let fields ← Fields.ofJson? ["ts", "subagent_type", "duration_sec", "success"] value
  let ts ← fields.required? "ts" Json.string?
  let subagentType ← fields.required? "subagent_type" Json.string?
  let seconds ← fields.required? "duration_sec" Json.int64?
  let success ← fields.required? "success" Json.bool?
  return .subagent ts subagentType seconds success

def permissionRequest? (value : Json) : Option TimelineEntry := do
  let fields ← Fields.ofJson? ["ts", "tool", "input"] value
  let ts ← fields.required? "ts" Json.string?
  let name ← fields.required? "tool" Json.string?
  let input ← fields.required? "input" Json.string?
  return .permissionRequest ts name input

def ofJson? (value : Json) : Option TimelineEntry :=
  match kind? value with
  | some ("prompt", rest) => (content? rest).map fun (ts, content) => .prompt ts content
  | some ("response", rest) => (content? rest).map fun (ts, content) => .response ts content
  | some ("tool", rest) => tool? rest
  | some ("subagent", rest) => subagent? rest
  | some ("permission_request", rest) => permissionRequest? rest
  | _ => none

end TimelineEntry

end SessionLog
