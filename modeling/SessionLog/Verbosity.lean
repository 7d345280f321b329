/-
  SessionLog/Verbosity.lean
  =========================
  **How much of a journal is shown.**

  A verbosity is a level up to which notices are shown, and may be nothing at all.
  It is written as a word in letters of either case, or as a number.
-/
import SessionLog.Journal
import SessionLog.Text.Digits

namespace SessionLog

inductive Verbosity where
  | off
  | error
  | warn
  | info
  | debug
  | trace
deriving DecidableEq, Repr

namespace Verbosity

def rank : Verbosity → Nat
  | .off => 0
  | .error => 1
  | .warn => 2
  | .info => 3
  | .debug => 4
  | .trace => 5

def ofSeverity : Severity → Verbosity
  | .debug => .debug
  | .warn => .warn
  | .error => .error

def admits (verbosity : Verbosity) (severity : Severity) : Bool :=
  (ofSeverity severity).rank ≤ verbosity.rank

/-! ### Reading -/

def ofNumber? : Nat → Option Verbosity
  | 0 => some .off
  | 1 => some .error
  | 2 => some .warn
  | 3 => some .info
  | 4 => some .debug
  | 5 => some .trace
  | _ => none

def ofWord? (word : String) : Option Verbosity :=
  match word.toLower with
  | "off" => some .off
  | "error" => some .error
  | "warn" => some .warn
  | "info" => some .info
  | "debug" => some .debug
  | "trace" => some .trace
  | _ => none

/-- A number in decimal digits, perhaps with a plus in front. -/
def number? (text : List Char) : Option Nat :=
  let digits := if text.head? = some '+' then text.drop 1 else text
  if digits.isEmpty || !digits.all Text.isDigit then none else some (Text.ofDigits digits)

def parse? (text : List Char) : Option Verbosity :=
  ((number? text).bind ofNumber?).or (ofWord? (String.ofList text))

end Verbosity

end SessionLog
