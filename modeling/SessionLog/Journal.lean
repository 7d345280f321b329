/-
  SessionLog/Journal.lean
  =======================
  **What the program says about its own work.**

  A journal is a row of notices in the order in which they were said. A notice has
  a severity, a scope and a text, and carries details beside the text. Who reads
  it, and what is left out, is decided elsewhere: by severity, by scope and by the
  names of the details.
-/
namespace SessionLog

/-! ### Severities and scopes -/

inductive Severity where
  | debug
  | warn
  | error
deriving DecidableEq, Repr

def Severity.name : Severity → String
  | .debug => "DEBUG"
  | .warn => "WARN"
  | .error => "ERROR"

inductive Scope where
  | settings
  | stateFile
  | events
  | snapshots
  /-- The run of the program as a whole. -/
  | run
deriving DecidableEq, Repr

/-- The name by which the notices of a scope are asked for. -/
def Scope.name : Scope → String
  | .settings => "lightlog_core::config"
  | .stateFile => "lightlog_core::state::store"
  | .events => "lightlog_core::dispatch"
  | .snapshots => "lightlog_core::snapshot"
  | .run => "lightlog_hook::handle"

/-! ### Notices -/

inductive Notice where
  /-- The settings are no JSON object. -/
  | settingsIgnored
  /-- The state file is no JSON. -/
  | stateCorrupt
  /-- The state file is no record of a session. -/
  | stateUnreadable
  /-- The record is of another version. -/
  | stateUnsupported
  | stateNotStored
  | stateNotCleared
  | eventApplied
  | eventHandled
  | costCritical
  | costWarning
  | snapshotWritten
  | snapshotNotWritten
  | payloadRefused (why : String)
  /-- The handling was broken off. -/
  | handlingStopped
  | performanceNotRecorded
deriving DecidableEq, Repr

namespace Notice

def severity : Notice → Severity
  | .settingsIgnored | .stateCorrupt | .stateUnreadable | .stateUnsupported => .debug
  | .eventApplied | .eventHandled | .snapshotWritten => .debug
  | .costCritical | .costWarning | .performanceNotRecorded => .warn
  | .stateNotStored | .stateNotCleared | .snapshotNotWritten => .error
  | .payloadRefused _ | .handlingStopped => .error

def scope : Notice → Scope
  | .settingsIgnored => .settings
  | .stateCorrupt | .stateUnreadable | .stateUnsupported => .stateFile
  | .stateNotStored | .stateNotCleared => .stateFile
  | .eventApplied | .snapshotNotWritten => .events
  | .costCritical | .costWarning | .snapshotWritten => .snapshots
  | .eventHandled | .payloadRefused _ | .handlingStopped | .performanceNotRecorded => .run

def text : Notice → String
  | .settingsIgnored => "Config is not a JSON object, using defaults"
  | .stateCorrupt => "Corrupt state file, starting without state"
  | .stateUnreadable => "Unreadable state record, starting without state"
  | .stateUnsupported => "Unsupported state file version, starting without state"
  | .stateNotStored => "Failed to write session state"
  | .stateNotCleared => "Failed to clear session state"
  | .eventApplied => "Applying hook event"
  | .eventHandled => "Handled hook event"
  | .costCritical => "Session cost reached critical threshold"
  | .costWarning => "Session cost reached warning threshold"
  | .snapshotWritten => "Snapshot written"
  | .snapshotNotWritten => "Failed to write session snapshot"
  | .payloadRefused why => "Hook error: " ++ why
  | .handlingStopped => "Hook panicked"
  | .performanceNotRecorded => "Failed to record hook performance"

/-- The names of the details that a notice carries, the text among them. -/
def details : Notice → List String
  | .settingsIgnored => ["message", "path"]
  | .stateCorrupt | .stateUnreadable => ["message", "error"]
  | .stateUnsupported => ["message", "version", "expected"]
  | .stateNotStored | .stateNotCleared => ["message", "error", "path"]
  | .eventApplied => ["message", "event", "has_state"]
  | .eventHandled => ["message", "event", "persist", "snapshot"]
  | .costCritical | .costWarning => ["message", "cost", "threshold"]
  | .snapshotWritten => ["message", "path", "mode"]
  | .snapshotNotWritten | .performanceNotRecorded => ["message", "error"]
  | .payloadRefused _ => ["message", "error", "backtrace"]
  | .handlingStopped => ["message", "error", "location", "backtrace"]

def display (notice : Notice) : String := notice.severity.name ++ " " ++ notice.text

end Notice

/-- Notices in the order in which they were said. -/
abbrev Journal := List Notice

end SessionLog
