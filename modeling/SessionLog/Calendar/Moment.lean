/-
  SessionLog/Calendar/Moment.lean
  ===============================
  **Moments: a local time and its distance from UTC.**

  A moment carries the time on the local clock and the offset of that clock. Its
  UTC time is in the calendar as well, and a leap second ends a minute of the local
  clock. The watermark of a moment is its UTC time to the millisecond, written like
  the stamps of a transcript.
-/
import SessionLog.Calendar.Printer

namespace SessionLog

/-- The time that lies so many seconds and microseconds after the start of 1970. -/
def DateTime.ofUnix? (seconds : Int) (micros : Nat) : Option DateTime := do
  let date ← Date.of? 1970 1 1
  let time ← TimeOfDay.of? 0 0 0 (micros * 1000)
  addSeconds? ⟨date, time⟩ seconds

/-- How far a local clock is ahead of UTC: less than a day either way. -/
structure Offset where
  seconds : Int
  lower : -86400 < seconds
  upper : seconds < 86400
deriving DecidableEq, Repr

namespace Offset

def of? (seconds : Int) : Option Offset :=
  if h : -86400 < seconds ∧ seconds < 86400 then some ⟨seconds, h.1, h.2⟩ else none

def utc : Offset := ⟨0, by decide, by decide⟩

end Offset

/-- A local time, with the offset in force. -/
structure Moment where
  localTime : DateTime
  offset : Offset
  inCalendar : (localTime.relabel? (-offset.seconds)).isSome = true
  leapEndsMinute : localTime.time.LeapEndsMinute
deriving DecidableEq, Repr

namespace Moment

/-- The moment of a local time, if its UTC time is in the calendar and the local clock
    can show it. -/
def of? (localTime : DateTime) (offset : Offset) : Option Moment :=
  if h : (localTime.relabel? (-offset.seconds)).isSome = true ∧
      localTime.time.LeapEndsMinute then
    some ⟨localTime, offset, h.1, h.2⟩
  else none

def ofUtc? (utc : DateTime) (offset : Offset) : Option Moment :=
  (utc.relabel? offset.seconds).bind fun localTime => of? localTime offset

def utcTime (m : Moment) : DateTime :=
  (m.localTime.relabel? (-m.offset.seconds)).get m.inCalendar

/-- The UTC time with three fraction digits and a `Z`. -/
def watermark (m : Moment) : List Char :=
  m.utcTime.toSecondsText ++ m.utcTime.time.fractionText 3 ++ ['Z']

end Moment

end SessionLog
