/-
  SessionLog/Settings.lean
  ========================
  **The settings of a project.**

  Settings are read from a JSON object, each from a key of its own. A key that is
  missing, or whose value is of another type, leaves its setting at the default
  and does not touch any other. A text that is no JSON object gives the defaults.
-/
import SessionLog.Json.Reader
import SessionLog.Journal
import SessionLog.Text.Utf8

namespace SessionLog

/-! ### Cost alerts -/

inductive AlertLevel where
  | warning
  | critical
deriving DecidableEq, Repr

/-- Thresholds in dollars. One that is not above zero is off. -/
structure CostAlert where
  warning : Binary64
  critical : Binary64
deriving DecidableEq, Repr

namespace CostAlert

/-- A threshold that is on, and not above the cost. -/
def reached (threshold cost : Binary64) : Bool := threshold.isPositive && threshold.le cost

def level? (alert : CostAlert) (cost : Binary64) : Option AlertLevel :=
  if reached alert.critical cost then some .critical
  else if reached alert.warning cost then some .warning
  else none

end CostAlert

/-! ### Settings -/

structure Settings where
  enabled : Bool
  costAlert : CostAlert
  /-- The greatest length of a response in characters; zero is no limit. -/
  maxResponse : Nat
  contextLimit : Int64
  tools : List String
  tracksPerformance : Bool
deriving DecidableEq, Repr

namespace Settings

def defaultTools : List String :=
  ["Edit", "MultiEdit", "Write", "NotebookEdit", "Skill", "Task", "AskUserQuestion"]

def default : Settings where
  enabled := true
  costAlert := ⟨.zero, .zero⟩
  maxResponse := 0
  contextLimit := 200000
  tools := defaultTools
  tracksPerformance := false

def records (settings : Settings) (tool : String) : Bool := settings.tools.contains tool

/-! ### Reading -/

def boolUnder (key : String) (object : Json) : Option Bool := (object.get? key).bind Json.bool?

def integerUnder (key : String) (object : Json) : Option Int64 :=
  ((object.get? key).bind Json.number?).bind Number.toInt64?

def realUnder (key : String) (object : Json) : Option Binary64 :=
  ((object.get? key).bind Json.number?).map Number.toReal

/-- The strings of a list; items of another type are passed over. -/
def stringsUnder (key : String) (object : Json) : Option (List String) :=
  ((object.get? key).bind Json.items?).map (List.filterMap Json.string?)

def thresholdUnder (key : String) (object : Json) : Option Binary64 :=
  (object.get? "cost_alert").bind (realUnder key)

def ofObject (object : Json) : Settings where
  enabled := (boolUnder "enabled" object).getD default.enabled
  costAlert :=
    ⟨(thresholdUnder "warning" object).getD default.costAlert.warning,
      (thresholdUnder "critical" object).getD default.costAlert.critical⟩
  maxResponse :=
    match integerUnder "response_max_length" object with
    | some n => n.toInt.toNat
    | none => default.maxResponse
  contextLimit := (integerUnder "context_limit" object).getD default.contextLimit
  tools := (stringsUnder "tools_to_log" object).getD default.tools
  tracksPerformance := (boolUnder "performance_tracking" object).getD default.tracksPerformance

def load (octets : Option (List UInt8)) : Settings × Journal :=
  match (octets.bind Utf8.decode?).bind Json.parse? with
  | some (.object members) => (ofObject (.object members), [])
  | some _ => (default, [.settingsIgnored])
  | none => (default, [])

end Settings

end SessionLog
