/-
  SessionLog/Calendar/Date.lean
  =============================
  **Days of the proleptic Gregorian calendar.**

  A date is a year, a month and a day that exist; years run from -262143 to
  262142. Days are stepped forwards and backwards one at a time, which is all
  that a shift between time zones takes, and counted by `dayNumber`.
-/
namespace SessionLog

/-! ### Years and months -/

/-- Every fourth year, but of the full centuries only every fourth. -/
def isLeap (year : Int) : Bool := year % 4 == 0 && (year % 100 != 0 || year % 400 == 0)

def daysIn (year : Int) (month : Nat) : Nat :=
  if month = 2 then if isLeap year then 29 else 28
  else if month = 4 ∨ month = 6 ∨ month = 9 ∨ month = 11 then 30
  else 31

/-- The first and the last year of the calendar. -/
def minYear : Int := -262143
def maxYear : Int := 262142

def IsDate (year : Int) (month day : Nat) : Prop :=
  (minYear ≤ year ∧ year ≤ maxYear) ∧ (1 ≤ month ∧ month ≤ 12) ∧
    (1 ≤ day ∧ day ≤ daysIn year month)

instance (year : Int) (month day : Nat) : Decidable (IsDate year month day) :=
  inferInstanceAs (Decidable (_ ∧ _))

structure Date where
  year : Int
  month : Nat
  day : Nat
  isDate : IsDate year month day
deriving DecidableEq, Repr

namespace Date

def of? (year : Int) (month day : Nat) : Option Date :=
  if h : IsDate year month day then some ⟨year, month, day, h⟩ else none

/-! ### Neighbours -/

/-- The day after: the next of the month, else the first of the next month, else
    the first of the next year. The last day of the calendar has none. -/
def next? (d : Date) : Option Date :=
  if d.day < daysIn d.year d.month then of? d.year d.month (d.day + 1)
  else if d.month < 12 then of? d.year (d.month + 1) 1
  else of? (d.year + 1) 1 1

/-- The day before. The first day of the calendar has none. -/
def previous? (d : Date) : Option Date :=
  if 1 < d.day then of? d.year d.month (d.day - 1)
  else if 1 < d.month then of? d.year (d.month - 1) (daysIn d.year (d.month - 1))
  else of? (d.year - 1) 12 31

def forward? : Nat → Date → Option Date
  | 0, d => some d
  | n + 1, d => d.next?.bind (forward? n)

def backward? : Nat → Date → Option Date
  | 0, d => some d
  | n + 1, d => d.previous?.bind (backward? n)

def addDays? (d : Date) : Int → Option Date
  | .ofNat n => d.forward? n
  | .negSucc n => d.backward? (n + 1)

/-! ### Counting -/

def daysBeforeMonth (year : Int) (month : Nat) : Int :=
  let leapDay := if isLeap year then 1 else 0
  match month with
  | 1 => 0
  | 2 => 31
  | 3 => 59 + leapDay
  | 4 => 90 + leapDay
  | 5 => 120 + leapDay
  | 6 => 151 + leapDay
  | 7 => 181 + leapDay
  | 8 => 212 + leapDay
  | 9 => 243 + leapDay
  | 10 => 273 + leapDay
  | 11 => 304 + leapDay
  | _ => 334 + leapDay

/-- The days before a year, counted from the start of the year 0. -/
def daysBeforeYear (year : Int) : Int :=
  365 * year + (year + 3) / 4 - (year + 99) / 100 + (year + 399) / 400

/-- The place of a date in the row of all days. -/
def dayNumber (d : Date) : Int :=
  daysBeforeYear d.year + daysBeforeMonth d.year d.month + d.day

end Date

end SessionLog
