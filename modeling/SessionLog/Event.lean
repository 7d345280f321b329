/-
  SessionLog/Event.lean
  =====================
  **Events in the life of a session.**

  The name in a payload tells the event, and the payload gives what belongs to it.
  A payload without a name tells of no event; a name that stands for none of the
  known events is kept.
-/
import SessionLog.Payload

namespace SessionLog

inductive Event where
  /-- A session starts, and why. -/
  | sessionStart (trigger : String)
  | userPromptSubmit (prompt : String)
  | preToolUse (tool : String) (input : Json)
  | postToolUse (tool : String) (input : Json) (response : Option Json)
  | subagentStop
  | permissionRequest (tool : String) (input : Json)
  | stop
  | sessionEnd
  | unknown (name : String)
deriving Repr, BEq

namespace Event

def name : Event → String
  | .sessionStart _ => "SessionStart"
  | .userPromptSubmit _ => "UserPromptSubmit"
  | .preToolUse _ _ => "PreToolUse"
  | .postToolUse _ _ _ => "PostToolUse"
  | .subagentStop => "SubagentStop"
  | .permissionRequest _ _ => "PermissionRequest"
  | .stop => "Stop"
  | .sessionEnd => "SessionEnd"
  | .unknown name => name

def ofName (name : String) (payload : Payload) : Event :=
  let tool := payload.toolName.getD ""
  let input := payload.toolInput.getD .null
  match name with
  | "SessionStart" => .sessionStart payload.startTrigger
  | "UserPromptSubmit" => .userPromptSubmit (payload.prompt.getD "")
  | "PreToolUse" => .preToolUse tool input
  | "PostToolUse" => .postToolUse tool input payload.toolResponse
  | "SubagentStop" => .subagentStop
  | "PermissionRequest" => .permissionRequest tool input
  | "Stop" => .stop
  | "SessionEnd" => .sessionEnd
  | other => .unknown other

end Event

def Payload.event? (payload : Payload) : Option Event :=
  payload.eventName.map fun name => Event.ofName name payload

end SessionLog
