/-
  SessionLog/LogFilter.lean
  =========================
  **Which notices of a journal are shown.**

  A filter is a list of directives. A directive gives a verbosity to the notices
  whose scope has a name that begins with its target, and which carry its detail;
  without a target or a detail it is for all of them. Of the directives that concern
  a notice the most specific counts, and a notice that none concerns is not shown.

  A filter is written as items between commas:

      level                     all notices up to a level
      target                    all notices of a target
      target=level              those up to a level
      target[{detail}]=level    those which carry a detail
      target[span]=level        those said inside a span

  A notice is never said inside a span, and its details have no values that could be
  asked for; an item that asks for a span or a value is read and shows nothing.

  The blanks around an item are passed over when it is taken apart, but its parts
  are cut out of the item with its blanks at the places that they have without them.
  Thus blanks in front move every part but a first one, and a part may come to begin
  or end inside a character; a filter with such an item is torn.
-/
import SessionLog.Text.Alphanumeric
import SessionLog.Text.Blank
import SessionLog.Text.Pattern.Reader
import SessionLog.Text.Split
import SessionLog.Verbosity

namespace SessionLog

/-! ### Directives -/

/-- A verbosity for some notices. -/
structure Directive where
  target : Option (List Char)
  detail : Option (List Char)
  verbosity : Verbosity
deriving DecidableEq, Repr

namespace Directive

def all (verbosity : Verbosity) : Directive := ⟨none, none, verbosity⟩

def concerns (directive : Directive) (notice : Notice) : Bool :=
  directive.target.all (·.isPrefixOf notice.scope.name.toList)
    && directive.detail.all fun detail => notice.details.contains (String.ofList detail)

/-- The length of a target; any target is longer than none. -/
def reach (directive : Directive) : Nat :=
  match directive.target with
  | none => 0
  | some target => target.length + 1

/-- The first directive yields to the second if that has the longer target, or a
    detail where the first has none, or the greater detail. Of two for the same
    notices the later counts. -/
def yields (first second : Directive) : Bool :=
  first.reach < second.reach
    || (first.reach == second.reach
      && match first.detail, second.detail with
        | none, _ => true
        | some _, none => false
        | some a, some b => decide (String.ofList a ≤ String.ofList b))

end Directive

abbrev LogFilter := List Directive

namespace LogFilter

/-- The more specific of a directive that was found and one that comes after it. -/
def prefer (found : Option Directive) (next : Directive) : Option Directive :=
  match found with
  | none => some next
  | some found => if found.yields next then some next else some found

def directiveFor? (filter : LogFilter) (notice : Notice) : Option Directive :=
  (filter.filter fun directive => directive.concerns notice).foldl prefer none

def shows (filter : LogFilter) (notice : Notice) : Bool :=
  (filter.directiveFor? notice).any fun directive => directive.verbosity.admits notice.severity

/-! ### Reading: places -/

inductive Fault where
  | unreadable
  /-- A part of an item begins or ends inside a character. -/
  | torn
deriving DecidableEq, Repr

def octetCount (text : List Char) : Nat := (text.map Char.utf8Size).foldl Nat.add 0

/-- The text before and behind a place, given in octets, unless that is inside a
    character. -/
def splitAt? : Nat → List Char → Option (List Char × List Char)
  | 0, text => some ([], text)
  | _, [] => none
  | place, c :: rest =>
    if c.utf8Size ≤ place then
      (splitAt? (place - c.utf8Size) rest).map fun (front, back) => (c :: front, back)
    else none

def cutFrom (item : List Char) (start : Nat) : Except Fault (List Char) :=
  match splitAt? start item with
  | some (_, back) => .ok back
  | none => .error .torn

def cut (item : List Char) (start stop : Nat) : Except Fault (List Char) := do
  let back ← cutFrom item start
  match splitAt? (stop - start) back with
  | some (part, _) => return part
  | none => throw .torn

/-! ### Reading: parts of an item -/

/-- The verbosity that is written from a place on; all notices if nothing is. -/
def verbosityFrom (item : List Char) (start : Nat) : Except Fault Verbosity := do
  match ← cutFrom item start with
  | [] => return .trace
  | text =>
    match Verbosity.parse? text with
    | some verbosity => return verbosity
    | none => throw .unreadable

/-- The end of an item behind its brackets; `rest` is what stands there. -/
def ending (item : List Char) (place : Nat) (rest : List Char) : Except Fault Verbosity :=
  match rest with
  | [] => .ok .trace
  | '=' :: _ => verbosityFrom item (place + 1)
  | _ => .error .unreadable

/-- A decimal number with a plus in front, which may have a point and an exponent. -/
def isPlusNumber : List Char → Bool
  | '+' :: text =>
    let word := (String.ofList text).toLower
    let whole := text.takeWhile Text.isDigit
    let behind := text.dropWhile Text.isDigit
    let fraction := if behind.head? = some '.' then (behind.drop 1).takeWhile Text.isDigit else []
    let behind :=
      if behind.head? = some '.' then (behind.drop 1).dropWhile Text.isDigit else behind
    let isExponent :=
      match behind with
      | [] => true
      | 'e' :: '+' :: digits | 'e' :: '-' :: digits | 'e' :: digits
      | 'E' :: '+' :: digits | 'E' :: '-' :: digits | 'E' :: digits =>
        !digits.isEmpty && digits.all Text.isDigit
      | _ => false
    ["inf", "infinity", "nan"].contains word
      || (!(whole.isEmpty && fraction.isEmpty) && isExponent)
  | _ => false

/-- The name in a detail, and whether a value is asked for, which has to be a number or
    a pattern. -/
def detailParts (text : List Char) : Except Fault (List Char × Bool) :=
  match Text.split '=' text with
  | name :: value :: _ =>
    if Text.Pattern.isPattern value || isPlusNumber value then .ok (name, true)
    else .error .unreadable
  | _ => .ok (text, false)

/-- A detail, from behind its brace on. Asking for a value or inside a span gives no
    directive. -/
def detailItem (item : List Char) (target : Option (List Char)) (inSpan : Bool) (start : Nat)
    (rest : List Char) : Except Fault (Option Directive) := do
  let stop := start + octetCount (rest.takeWhile (· ≠ '}'))
  match rest.dropWhile (· ≠ '}') with
  | [] => throw .unreadable
  | _ :: rest =>
    match ← cut item start stop with
    | [] => throw .unreadable
    | text =>
      let (name, hasValue) ← detailParts text
      match rest with
      | ']' :: rest =>
        let verbosity ← ending item (stop + 2) rest
        return if inSpan || hasValue then none else some ⟨target, some name, verbosity⟩
      | _ => throw .unreadable

/-- A span, from behind its bracket on. -/
def spanItem (item : List Char) (target : Option (List Char)) (start : Nat)
    (rest : List Char) : Except Fault (Option Directive) := do
  let isInside := fun c => c ≠ ']' ∧ c ≠ '{'
  let stop := start + octetCount (rest.takeWhile isInside)
  match rest.dropWhile isInside with
  | [] => throw .unreadable
  | '{' :: rest =>
    let span ← cut item start stop
    detailItem item target (!span.isEmpty) (stop + 1) rest
  | _ :: rest =>
    let _ ← cut item start stop
    let _ ← ending item (stop + 1) rest
    return none

def isTargetStart (c : Char) : Bool :=
  c == '-' || c == ':' || c == '_' || Text.isAlphanumeric c

/-- An item by itself: a level, else a target. -/
def plainItem (item : List Char) : Directive :=
  match Verbosity.parse? item with
  | some verbosity => .all verbosity
  | none => ⟨some item, none, .trace⟩

def targetItem (item text : List Char) : Except Fault (Option Directive) := do
  let isInside := fun c => c ≠ '=' ∧ c ≠ '['
  let stop := octetCount (text.takeWhile isInside)
  match text.dropWhile isInside with
  | [] => return some (plainItem item)
  | '=' :: _ =>
    let target ← cut item 0 stop
    let verbosity ← verbosityFrom item (stop + 1)
    return some ⟨some target, none, verbosity⟩
  | _ :: rest =>
    let target ← cut item 0 stop
    spanItem item (some target) (stop + 1) rest

def readItem (item : List Char) : Except Fault (Option Directive) :=
  match Text.trim item with
  | [] => .error .unreadable
  | '[' :: rest => spanItem item none 1 rest
  | c :: rest => if isTargetStart c then targetItem item (c :: rest) else .error .unreadable

/-! ### Reading: filters -/

/-- The filter that a text writes. Empty items count for nothing. -/
def parse (text : String) : Except Fault LogFilter := do
  let items := (Text.split ',' text.toList).filter fun item => !item.isEmpty
  return (← items.mapM readItem).filterMap id

def isYes (text : String) : Bool := ["1", "true", "TRUE", "yes", "YES"].contains text

/-- The filter that two variables of the environment ask for: the one asks for all
    notices, the other writes a filter. Without one that can be read warnings and
    errors are shown. A torn filter is none. -/
def ofEnvironment? (debugging written : Option String) : Option LogFilter :=
  if debugging.any isYes then some [.all .debug]
  else
    match written.map parse with
    | some (.ok filter) => some filter
    | some (.error .torn) => none
    | _ => some [.all .warn]

end LogFilter

end SessionLog
