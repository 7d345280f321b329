/-
  SessionLog/Calendar/Parser.lean
  ===============================
  **Reading dates and times.**

  Three forms are read.

    * The *record* form, in which times are stored: fields of one digit or two, a
      signed year of any length, blanks before a field, before a separator and at
      the end.
    * The *plain* form of a transcript: the same without blanks before separators
      and at the end.
    * The *zoned* form: fields of fixed width and an offset from UTC, given as the
      time in UTC. `T`, `t` or a space divides date and time.

  All three take a fraction of any length and cut it after nine digits, and a
  second of 60.
-/
import SessionLog.Calendar.DateTime
import SessionLog.Text.Blank
import SessionLog.Text.Digits

namespace SessionLog

namespace DateTime

open Text (number? trimStart)

/-! ### Parts -/

def expect? (c : Char) : List Char → Option (List Char)
  | [] => none
  | d :: rest => if d = c then some rest else none

/-- A year: four digits at most, or a sign and any number of digits. -/
def year? (text : List Char) : Option (Int × List Char) :=
  match trimStart text with
  | '-' :: text => (number? 1 text.length text).map fun (n, rest) => (-(n : Int), rest)
  | '+' :: text => (number? 1 text.length text).map fun (n, rest) => ((n : Int), rest)
  | text => (number? 1 4 text).map fun (n, rest) => ((n : Int), rest)

/-- A field of one digit or two, after blanks. -/
def field? (text : List Char) : Option (Nat × List Char) := number? 1 2 (trimStart text)

/-- The nanoseconds of a fraction, if there is a point, and the rest. Digits after
    the ninth are passed over. -/
def nanos? : List Char → Option (Nat × List Char)
  | '.' :: text => do
    let (n, rest) ← number? 1 9 text
    let read := text.length - rest.length
    return (n * Nat.pow 10 (9 - read), rest.dropWhile Text.isDigit)
  | text => some (0, text)

def of? (year : Int) (month day hour minute second nano : Nat) : Option DateTime := do
  let date ← Date.of? year month day
  let time ← TimeOfDay.of? hour minute second nano
  return ⟨date, time⟩

/-! ### Without a zone -/

/-- The fields and separators of the two forms without a zone; `gap` drops what may
    stand before a separator and at the end. -/
def fields? (gap : List Char → List Char) (text : List Char) : Option DateTime := do
  let (year, text) ← year? text
  let text ← expect? '-' (gap text)
  let (month, text) ← field? text
  let text ← expect? '-' (gap text)
  let (day, text) ← field? text
  let text ← expect? 'T' (gap text)
  let (hour, text) ← field? text
  let text ← expect? ':' (gap text)
  let (minute, text) ← field? text
  let text ← expect? ':' (gap text)
  let (second, text) ← field? text
  let (nano, text) ← nanos? text
  if (gap text).isEmpty then of? year month day hour minute second nano else none

/-- The record form. -/
def parse? (text : List Char) : Option DateTime := fields? trimStart text

/-- The plain form. -/
def parsePlain? (text : List Char) : Option DateTime := fields? id text

/-! ### With a zone -/

def divider? : List Char → Option (List Char)
  | [] => none
  | c :: rest => if c = 'T' ∨ c = 't' ∨ c = ' ' then some rest else none

/-- The sign of an offset: plus, hyphen or the minus sign U+2212. -/
def offsetSign? : List Char → Option (Int × List Char)
  | '+' :: rest => some (1, rest)
  | '-' :: rest => some (-1, rest)
  | '−' :: rest => some (-1, rest)
  | _ => none

/-- An offset from UTC in seconds: a `Z` of either case, or sign, hours and
    minutes. -/
def offset? (text : List Char) : Option (Int × List Char) :=
  match text with
  | 'Z' :: rest => some (0, rest)
  | 'z' :: rest => some (0, rest)
  | text => do
    let (sign, text) ← offsetSign? text
    let (hours, text) ← number? 2 2 text
    let text ← expect? ':' text
    let (minutes, text) ← number? 2 2 text
    if hours ≤ 23 ∧ minutes ≤ 59 then
      return (sign * ((hours : Int) * 3600 + (minutes : Int) * 60), text)
    else none

/-- The zoned form: the time as shown, and the offset from UTC in seconds. -/
def parseZoned? (text : List Char) : Option (DateTime × Int) := do
  let (year, text) ← number? 4 4 text
  let text ← expect? '-' text
  let (month, text) ← number? 2 2 text
  let text ← expect? '-' text
  let (day, text) ← number? 2 2 text
  let text ← divider? text
  let (hour, text) ← number? 2 2 text
  let text ← expect? ':' text
  let (minute, text) ← number? 2 2 text
  let text ← expect? ':' text
  let (second, text) ← number? 2 2 text
  let (nano, text) ← nanos? text
  let (offset, text) ← offset? text
  if text.isEmpty then
    let shown ← of? year month day hour minute second nano
    return (shown, offset)
  else none

end DateTime

end SessionLog
