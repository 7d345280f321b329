/-
  SessionLog/Calendar/Printer.lean
  ================================
  **Dates and times as text.**

  A year is written with four digits; before the year 0 and after the year 9999 it
  has a sign. A full time has the fewest of 0, 3, 6 and 9 fraction digits that
  lose nothing.
-/
import SessionLog.Calendar.DateTime
import SessionLog.Text.Digits

namespace SessionLog

open Text (padded)

/-- A year with four digits at least, signed outside 0 to 9999. -/
def yearText (year : Int) : List Char :=
  if 0 ≤ year ∧ year ≤ 9999 then padded 4 year.toNat
  else (if year < 0 then '-' else '+') :: padded 4 year.natAbs

namespace Date

def text (d : Date) : List Char :=
  yearText d.year ++ '-' :: (padded 2 d.month ++ '-' :: padded 2 d.day)

end Date

namespace TimeOfDay

def text (t : TimeOfDay) : List Char :=
  padded 2 t.hour ++ ':' :: (padded 2 t.minute ++ ':' :: padded 2 t.shownSecond)

/-- A point and the first `places` digits of the fraction, `places` at most nine. -/
def fractionText (places : Nat) (t : TimeOfDay) : List Char :=
  '.' :: padded places (t.shownNano / Nat.pow 10 (9 - places))

/-- The fraction without loss: nothing for whole seconds. -/
def exactFractionText (t : TimeOfDay) : List Char :=
  if t.shownNano = 0 then []
  else if t.shownNano % 1000000 = 0 then t.fractionText 3
  else if t.shownNano % 1000 = 0 then t.fractionText 6
  else t.fractionText 9

end TimeOfDay

namespace DateTime

/-- Date and time to the second: `2026-01-20T18:58:12`. -/
def toSecondsText (t : DateTime) : List Char := t.date.text ++ 'T' :: t.time.text

/-- Date and time in full: `2026-01-20T18:58:12.123456`. -/
def text (t : DateTime) : List Char := t.toSecondsText ++ t.time.exactFractionText

def microsText (t : DateTime) : List Char := t.toSecondsText ++ t.time.fractionText 6

/-- Month, day, hour and minute: `01-20 18:58`. -/
def minuteText (t : DateTime) : List Char :=
  padded 2 t.date.month ++ '-' :: (padded 2 t.date.day ++ ' ' ::
    (padded 2 t.time.hour ++ ':' :: padded 2 t.time.minute))

/-- Hour and minute without a colon: `1858`. -/
def hourMinuteText (t : DateTime) : List Char :=
  padded 2 t.time.hour ++ padded 2 t.time.minute

end DateTime

end SessionLog
