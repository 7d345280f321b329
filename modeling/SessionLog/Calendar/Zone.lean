/-
  SessionLog/Calendar/Zone.lean
  =============================
  **Time zones, written the POSIX way.**

  A zone with a fixed offset is a name and the time that has to be added to the
  local clock to come to UTC: `EST5`, `<+09>-09`. A zone with summer time goes on
  with a second name, perhaps its time, and the days on which summer time begins and
  ends: `EST5EDT,M3.2.0,M11.1.0`. Without a time of its own, summer time is an hour
  ahead; a change without a time of day is at two o'clock on the clock that is left.

  A name has three to seven letters, or stands between angle brackets and may then
  hold digits and signs as well. Numbers may have any number of digits.
-/
import SessionLog.Calendar.Moment
import SessionLog.Calendar.Parser

namespace SessionLog

/-! ### Changes of the clock -/

inductive ChangeDay where
  /-- The `n`-th day, a leap day not being counted. -/
  | ordinal (n : Nat)
  /-- So many days after the first day of the year. -/
  | after (n : Nat)
  /-- The first to fourth of a day of the week in a month, or the last one for five;
      Sunday is day 0. -/
  | weekday (month week day : Nat)
deriving DecidableEq, Repr

namespace ChangeDay

/-- The day of the week of a day in the row of all days. -/
def weekdayOf (number : Int) : Int := (number + 5) % 7

def number (year : Int) : ChangeDay → Int
  | .ordinal n => Date.daysBeforeYear year + n + (if isLeap year ∧ 60 ≤ n then 1 else 0)
  | .after n => Date.daysBeforeYear year + n + 1
  | .weekday month week day =>
    let before := Date.daysBeforeYear year + Date.daysBeforeMonth year month
    let first := 1 + ((day : Int) - weekdayOf (before + 1)) % 7
    let dayOfMonth := first + ((week : Int) - 1) * 7
    before + (if daysIn year month < dayOfMonth then dayOfMonth - 7 else dayOfMonth)

end ChangeDay

/-- A day and the seconds from its midnight on the clock that is left. -/
structure Change where
  day : ChangeDay
  second : Nat
deriving DecidableEq, Repr

/-- The change of a year in UTC, over all days, from a clock with an offset. -/
def Change.seconds (change : Change) (offset : Offset) (year : Int) : Int :=
  change.day.number year * 86400 + change.second - offset.seconds

/-! ### Zones -/

/-- How the local clock is set. -/
inductive Zone where
  /-- The same offset at all times. -/
  | fixed (offset : Offset)
  /-- A standard time and a summer time that begins and ends every year. -/
  | alternating (standard summer : Offset) (opening closing : Change)
deriving DecidableEq, Repr

namespace Zone

/-- Whether a time lies in summer time, which begins at `opens` and ends at `closes`
    of each year; the neighbouring years matter when a change is past the end of its
    year. -/
def isSummer (opens closes : Int → Int) (year time : Int) : Bool :=
  if opens year ≤ closes year then
    if time < opens year then opens (year - 1) ≤ time && time < closes (year - 1)
    else time < closes year || (opens (year + 1) ≤ time && time < closes (year + 1))
  else if time < closes year then opens (year - 1) ≤ time || time < closes (year - 1)
  else opens year ≤ time && (time < closes (year + 1) || opens (year + 1) ≤ time)

def offsetAt (zone : Zone) (utc : DateTime) : Offset :=
  match zone with
  | .fixed offset => offset
  | .alternating standard summer opening closing =>
    if isSummer (opening.seconds standard) (closing.seconds summer) utc.date.year utc.seconds
    then summer else standard

/-! ### Reading -/

open Text (number?)

def isQuotedName (c : Char) : Bool := c.isAlphanum || c == '+' || c == '-'

def isName (name : List Char) : Bool :=
  3 ≤ name.length && name.length ≤ 7 && name.all isQuotedName

def afterName? : List Char → Option (List Char)
  | '<' :: text =>
    match text.dropWhile (· ≠ '>') with
    | _ :: rest => if isName (text.takeWhile (· ≠ '>')) then some rest else none
    | [] => none
  | text =>
    if isName (text.takeWhile Char.isAlpha) then some (text.dropWhile Char.isAlpha) else none

def integer? (text : List Char) : Option (Nat × List Char) := number? 1 text.length text

/-- A number after a colon, or zero. -/
def part? : List Char → Option (Nat × List Char)
  | ':' :: text => integer? text
  | text => some (0, text)

/-- Hours up to 24, and minutes and seconds if they are given, in seconds. Without
    minutes no colon is left for seconds. -/
def time? (text : List Char) : Option (Nat × List Char) := do
  let (hours, text) ← integer? text
  let (minutes, text) ← part? text
  let (seconds, text) ← part? text
  if hours ≤ 24 ∧ minutes ≤ 59 ∧ seconds ≤ 59 then
    return (hours * 3600 + minutes * 60 + seconds, text)
  else none

/-- The seconds that lead from UTC to the local clock; they are written the other way
    round. -/
def ahead? : List Char → Option (Int × List Char)
  | '-' :: text => (time? text).map fun (n, rest) => ((n : Int), rest)
  | '+' :: text => (time? text).map fun (n, rest) => (-(n : Int), rest)
  | text => (time? text).map fun (n, rest) => (-(n : Int), rest)

def inRange? (low high : Nat) (text : List Char) : Option (Nat × List Char) :=
  (integer? text).filter fun (n, _) => low ≤ n && n ≤ high

def changeDay? : List Char → Option (ChangeDay × List Char)
  | 'J' :: text => (inRange? 1 365 text).map fun (n, rest) => (.ordinal n, rest)
  | 'M' :: text => do
    let (month, text) ← inRange? 1 12 text
    let (week, text) ← inRange? 1 5 (← DateTime.expect? '.' text)
    let (day, text) ← inRange? 0 6 (← DateTime.expect? '.' text)
    return (.weekday month week day, text)
  | text => (inRange? 0 365 text).map fun (n, rest) => (.after n, rest)

def change? (text : List Char) : Option (Change × List Char) := do
  let (day, text) ← changeDay? (← DateTime.expect? ',' text)
  match text with
  | '/' :: text =>
    let (second, text) ← time? text
    return (⟨day, second⟩, text)
  | text => return (⟨day, 7200⟩, text)

/-- The offset of summer time, which need not be written. -/
def summer? (standard : Int) (text : List Char) : Option (Int × List Char) :=
  if text.head? = some ',' then some (standard + 3600, text) else ahead? text

def isAsciiBlank (c : Char) : Bool :=
  c == ' ' || c == '\t' || c == '\n' || c == '\r' || c.toNat == 0x0C

def trim (text : List Char) : List Char :=
  ((text.dropWhile isAsciiBlank).reverse.dropWhile isAsciiBlank).reverse

def parse? (zone : String) : Option Zone := do
  let (standard, text) ← ahead? (← afterName? (trim zone.toList))
  let offset ← Offset.of? standard
  if text.isEmpty then return .fixed offset
  let (summer, text) ← summer? standard (← afterName? text)
  let (opening, text) ← change? text
  let (closing, text) ← change? text
  if text.isEmpty then return .alternating offset (← Offset.of? summer) opening closing
  else none

end Zone

end SessionLog
