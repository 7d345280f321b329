/-
  SessionLog/Calendar/DateTime.lean
  =================================
  **A date and a time of day, without a zone.**

  A time of day counts seconds from midnight and nanoseconds in the second. Within
  a leap second the nanoseconds run on from `10⁹` to below `2 · 10⁹`.

  Two ways to move a time by seconds differ in a leap second alone. `relabel?`
  says the same moment on another clock and keeps the nanoseconds as they are.
  `addSeconds?` is the time so much later or earlier, and leaves the leap second.
-/
import SessionLog.Calendar.Date

namespace SessionLog

def nanosPerSecond : Nat := 1000000000

structure TimeOfDay where
  second : Nat
  nano : Nat
  second_lt : second < 86400
  nano_lt : nano < 2 * nanosPerSecond
deriving DecidableEq, Repr

namespace TimeOfDay

/-- The time of an hour, a minute, a second up to 60 and some nanoseconds. -/
def of? (hour minute second nano : Nat) : Option TimeOfDay :=
  if h : hour < 24 ∧ minute < 60 ∧ second ≤ 60 ∧ nano < nanosPerSecond then
    if second = 60 then
      some ⟨hour * 3600 + minute * 60 + 59, nano + nanosPerSecond, by omega, by omega⟩
    else some ⟨hour * 3600 + minute * 60 + (second % 60), nano, by omega, by omega⟩
  else none

def hour (t : TimeOfDay) : Nat := t.second / 3600
def minute (t : TimeOfDay) : Nat := t.second / 60 % 60

def isLeapSecond (t : TimeOfDay) : Bool := nanosPerSecond ≤ t.nano

/-- A leap second is the last of its minute, as on every clock and in every text. A time
    that is told on a clock ahead by part of a minute may be out of step. -/
def LeapEndsMinute (t : TimeOfDay) : Prop := t.isLeapSecond = true → t.second % 60 = 59

instance (t : TimeOfDay) : Decidable t.LeapEndsMinute := inferInstanceAs (Decidable (_ → _))

/-- The second of the minute as it is shown: 60 in a leap second at its end. -/
def shownSecond (t : TimeOfDay) : Nat :=
  t.second % 60 + (if t.isLeapSecond then 1 else 0)

def shownNano (t : TimeOfDay) : Nat := t.nano % nanosPerSecond

end TimeOfDay

structure DateTime where
  date : Date
  time : TimeOfDay
deriving DecidableEq, Repr

namespace DateTime

/-! ### Order -/

/-- The seconds in front of a time, over all days. -/
def seconds (t : DateTime) : Int := t.date.dayNumber * 86400 + t.time.second

def Before (a b : DateTime) : Prop :=
  a.seconds < b.seconds ∨ (a.seconds = b.seconds ∧ a.time.nano < b.time.nano)

instance (a b : DateTime) : Decidable (a.Before b) := inferInstanceAs (Decidable (_ ∨ _))

/-! ### Moving in time -/

/-- The date and the time of day that lie `second` seconds after midnight of a
    date, on whatever day that is. -/
def settle? (date : Date) (second : Int) (nano : Nat) (h : nano < 2 * nanosPerSecond) :
    Option DateTime :=
  (date.addDays? (second / 86400)).map fun date =>
    ⟨date, ⟨(second % 86400).toNat, nano, by omega, h⟩⟩

/-- The same moment on a clock that is ahead by `shift` seconds. -/
def relabel? (t : DateTime) (shift : Int) : Option DateTime :=
  settle? t.date (t.time.second + shift) t.time.nano t.time.nano_lt

def addSeconds? (t : DateTime) (n : Int) : Option DateTime :=
  if t.time.isLeapSecond ∧ n ≠ 0 then
    let second : Int := t.time.second + (if n < 0 then 1 else 0)
    settle? t.date (second + n) (t.time.nano - nanosPerSecond)
      (by have := t.time.nano_lt; omega)
  else settle? t.date (t.time.second + n) t.time.nano t.time.nano_lt

/-! ### Time between -/

/-- The nanoseconds from one time to a later one. A leap second between them
    counts as a second of its own. -/
def nanosBetween (start stop : DateTime) : Int :=
  let extra : Int :=
    if start.time.second < stop.time.second ∧ start.time.isLeapSecond then 1
    else if stop.time.second < start.time.second ∧ stop.time.isLeapSecond then -1
    else 0
  (stop.seconds - start.seconds + extra) * nanosPerSecond
    + ((stop.time.nano : Int) - start.time.nano)

/-- The whole seconds from one time to another, with the fraction cut off. -/
def secondsBetween (start stop : DateTime) : Int :=
  Int.tdiv (nanosBetween start stop) nanosPerSecond

end DateTime

end SessionLog
