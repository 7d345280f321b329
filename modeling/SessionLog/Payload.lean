/-
  SessionLog/Payload.lean
  =======================
  **The payload of a hook: what the host tells about one event.**

  A payload is a JSON object. Nothing in it has to be there, and a text field of
  another type is taken as the JSON text of its value.
-/
import SessionLog.Json.Printer
import SessionLog.Json.Reader

namespace SessionLog

/-- The fields of a payload. Null is the same as nothing. -/
structure Payload where
  eventName : Option String
  directory : Option String
  sessionId : Option String
  transcriptPath : Option String
  trigger : Option String
  source : Option String
  prompt : Option String
  toolName : Option String
  toolInput : Option Json
  toolResponse : Option Json
deriving Repr, BEq

inductive PayloadError where
  | notJson
  | notObject
deriving DecidableEq, Repr

def PayloadError.message : PayloadError → String
  | .notJson => "JSON error: hook input"
  | .notObject => "Invalid hook input: payload is not a JSON object"

namespace Payload

/-! ### Reading -/

/-- The value under a key, if it is there and not null. -/
def field (object : Json) (key : String) : Option Json :=
  (object.get? key).filter fun value => !value.isNull

/-- A field as text: a string as it is, another value as JSON text. -/
def textField (object : Json) (key : String) : Option String :=
  (field object key).map Json.display

def ofObject (object : Json) : Payload where
  eventName := textField object "hook_event_name"
  directory := textField object "cwd"
  sessionId := textField object "session_id"
  transcriptPath := textField object "transcript_path"
  trigger := textField object "trigger"
  source := textField object "source"
  prompt := textField object "prompt"
  toolName := textField object "tool_name"
  toolInput := field object "tool_input"
  toolResponse := field object "tool_response"

def parse (text : List Char) : Except PayloadError Payload :=
  match Json.parse? text with
  | none => .error .notJson
  | some (.object members) => .ok (ofObject (.object members))
  | some _ => .error .notObject

/-! ### Looking into payloads -/

/-- Why the session starts: the trigger, or the source for want of one. -/
def startTrigger (payload : Payload) : String := (payload.trigger.or payload.source).getD ""

def transcript (payload : Payload) : String := payload.transcriptPath.getD ""

end Payload

end SessionLog
