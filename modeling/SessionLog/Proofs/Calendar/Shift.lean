/-
  SessionLog/Proofs/Calendar/Shift.lean
  =====================================
  **Days and times are stepped as their numbers are added to.**

  A day that is stepped to is so many places on in the row of all days, and wherever the row
  has a day it is stepped to. So a clock that is ahead shows the time that is so many seconds
  on, as long as the calendar has it. Moments of different clocks are compared by one number.
-/
import SessionLog.Proofs.Calendar.DateTime

namespace SessionLog

namespace Date

/-! ### The row at the ends of months and years -/

theorem dayNumber_eq_of_newYear {d : Date} (hmonth : d.month = 1) (hday : d.day = 1) :
    d.dayNumber = daysBeforeYear d.year + 1 := by
  rw [dayNumber, hmonth, hday]
  exact congrArg (· + 1) (Int.add_zero _)

theorem dayNumber_eq_of_yearEnd {d : Date} (hmonth : d.month = 12) (hday : d.day = 31) :
    d.dayNumber = daysBeforeYear (d.year + 1) := by
  have hlast := daysBeforeMonth_last d.year
  have hdays : daysIn d.year 12 = 31 := rfl
  rw [dayNumber, hmonth, hday, daysBeforeYear_succ]
  omega

/-! ### Neighbours -/

theorem fields_of_of? {year : Int} {month day : Nat} {d : Date} (h : of? year month day = some d) :
    d.year = year ∧ d.month = month ∧ d.day = day := by
  rw [of?] at h
  split at h
  · cases h
    exact ⟨rfl, rfl, rfl⟩
  · cases h

theorem dayNumber_next? {d e : Date} (h : d.next? = some e) : e.dayNumber = d.dayNumber + 1 := by
  obtain ⟨-, ⟨hmonth, hmonth'⟩, -, hday⟩ := d.isDate
  rw [next?] at h
  split at h
  · obtain ⟨hyear, hsame, hnext⟩ := fields_of_of? h
    rw [dayNumber, hyear, hsame, hnext, dayNumber]
    omega
  · split at h
    · obtain ⟨hyear, hnext, hfirst⟩ := fields_of_of? h
      have hmonths := daysBeforeMonth_succ d.year hmonth ‹_›
      rw [dayNumber, hyear, hnext, hfirst, hmonths, dayNumber]
      omega
    · obtain ⟨hyear, hmonthE, hdayE⟩ := fields_of_of? h
      have hdecember : d.month = 12 := by omega
      have hlast : d.day = 31 := by
        have hdays : daysIn d.year 12 = 31 := rfl
        rw [← hdecember] at hdays
        omega
      rw [dayNumber_eq_of_newYear hmonthE hdayE, hyear, dayNumber_eq_of_yearEnd hdecember hlast]

theorem dayNumber_previous? {d e : Date} (h : d.previous? = some e) :
    e.dayNumber = d.dayNumber - 1 := by
  obtain ⟨-, ⟨hmonth, hmonth'⟩, hday, -⟩ := d.isDate
  rw [previous?] at h
  split at h
  · obtain ⟨hyear, hsame, hlast⟩ := fields_of_of? h
    rw [dayNumber, hyear, hsame, hlast, dayNumber]
    omega
  · split at h
    · obtain ⟨hyear, hbefore, hlast⟩ := fields_of_of? h
      have hmonths : daysBeforeMonth d.year d.month =
          daysBeforeMonth d.year (d.month - 1) + daysIn d.year (d.month - 1) := by
        have hstep := daysBeforeMonth_succ d.year (Nat.le_sub_one_of_lt ‹_›) (by omega)
        rwa [Nat.sub_add_cancel hmonth] at hstep
      rw [dayNumber, hyear, hbefore, hlast, dayNumber, hmonths]
      omega
    · obtain ⟨hyear, hmonthE, hdayE⟩ := fields_of_of? h
      have hjanuary : d.month = 1 := by omega
      have hfirst : d.day = 1 := by omega
      rw [dayNumber_eq_of_yearEnd hmonthE hdayE, hyear, Int.sub_add_cancel,
        dayNumber_eq_of_newYear hjanuary hfirst, Int.add_sub_cancel]

theorem exists_of? {year : Int} {month day : Nat} (h : IsDate year month day) :
    ∃ d, of? year month day = some d := ⟨_, dif_pos h⟩

theorem one_le_daysIn (year : Int) (month : Nat) : 1 ≤ daysIn year month := by
  rw [daysIn]
  split
  · split <;> decide
  · split <;> decide

/-- A day with a later one has one after it: the calendar ends with the last day of a year. -/
theorem exists_next?_of_lt {d later : Date} (h : d.dayNumber < later.dayNumber) :
    ∃ e, d.next? = some e := by
  obtain ⟨⟨hfirst, hlast⟩, ⟨hmonth, hmonth'⟩, hday, hday'⟩ := d.isDate
  obtain ⟨⟨-, hlater⟩, ⟨-, hmonthL⟩, -, hdayL⟩ := later.isDate
  rw [next?]
  split
  · exact exists_of? ⟨⟨hfirst, hlast⟩, ⟨hmonth, hmonth'⟩, by omega, ‹_›⟩
  · split
    · exact exists_of? ⟨⟨hfirst, hlast⟩, ⟨by omega, ‹_›⟩, Nat.le_refl 1, one_le_daysIn _ _⟩
    · -- the last day of the year: a later day is of a later year
      have hyear : d.year < later.year := by
        rcases dayNumber_lt_iff.1 h with hyear | ⟨hyear, hmonths | ⟨hmonths, hdays⟩⟩
        · exact hyear
        · omega
        · rw [← hyear, ← hmonths] at hdayL
          omega
      exact exists_of? ⟨⟨by omega, by omega⟩, by decide, Nat.le_refl 1, one_le_daysIn _ _⟩

theorem exists_previous?_of_lt {d earlier : Date} (h : earlier.dayNumber < d.dayNumber) :
    ∃ e, d.previous? = some e := by
  obtain ⟨⟨hfirst, hlast⟩, ⟨hmonth, hmonth'⟩, hday, hday'⟩ := d.isDate
  obtain ⟨⟨hearlier, -⟩, ⟨hmonthE, -⟩, hdayE, -⟩ := earlier.isDate
  rw [previous?]
  split
  · exact exists_of? ⟨⟨hfirst, hlast⟩, ⟨hmonth, hmonth'⟩, by omega, by omega⟩
  · split
    · exact exists_of? ⟨⟨hfirst, hlast⟩, ⟨by omega, by omega⟩, one_le_daysIn _ _, Nat.le_refl _⟩
    · -- the first day of the year: an earlier day is of an earlier year
      have hyear : earlier.year < d.year := by
        rcases dayNumber_lt_iff.1 h with hyear | ⟨hyear, hmonths | ⟨hmonths, hdays⟩⟩
        · exact hyear
        · omega
        · omega
      have hdays : daysIn (d.year - 1) 12 = 31 := rfl
      exact exists_of? ⟨⟨by omega, by omega⟩, by decide, by decide, Nat.le_of_eq hdays.symm⟩

/-! ### Days further off -/

theorem forward?_eq_some_iff {n : Nat} {d e : Date} :
    d.forward? n = some e ↔ e.dayNumber = d.dayNumber + n := by
  induction n generalizing d with
  | zero =>
    rw [forward?, Option.some.injEq, ← dayNumber_inj]
    omega
  | succ n ih =>
    rw [forward?, Option.bind_eq_some_iff]
    constructor
    · rintro ⟨next, hnext, hrest⟩
      have hstep := dayNumber_next? hnext
      have := ih.1 hrest
      omega
    · intro h
      have hlater : d.dayNumber < e.dayNumber := by omega
      obtain ⟨next, hnext⟩ := exists_next?_of_lt hlater
      have hstep := dayNumber_next? hnext
      exact ⟨next, hnext, ih.2 (by omega)⟩

theorem backward?_eq_some_iff {n : Nat} {d e : Date} :
    d.backward? n = some e ↔ e.dayNumber = d.dayNumber - n := by
  induction n generalizing d with
  | zero =>
    rw [backward?, Option.some.injEq, ← dayNumber_inj]
    omega
  | succ n ih =>
    rw [backward?, Option.bind_eq_some_iff]
    constructor
    · rintro ⟨previous, hprevious, hrest⟩
      have hstep := dayNumber_previous? hprevious
      have := ih.1 hrest
      omega
    · intro h
      have hearlier : e.dayNumber < d.dayNumber := by omega
      obtain ⟨previous, hprevious⟩ := exists_previous?_of_lt hearlier
      have hstep := dayNumber_previous? hprevious
      exact ⟨previous, hprevious, ih.2 (by omega)⟩

/-- The day so many days off is the one that has this place in the row. -/
theorem addDays?_eq_some_iff {d e : Date} {n : Int} :
    d.addDays? n = some e ↔ e.dayNumber = d.dayNumber + n := by
  cases n with
  | ofNat n => exact forward?_eq_some_iff
  | negSucc n =>
    rw [addDays?, backward?_eq_some_iff]
    omega

end Date

namespace DateTime

/-! ### Times further off -/

theorem eq_iff_seconds {a b : DateTime} :
    a = b ↔ a.seconds = b.seconds ∧ a.time.nano = b.time.nano := by
  constructor
  · rintro rfl
    exact ⟨rfl, rfl⟩
  · rintro ⟨hseconds, hnano⟩
    have hnot {t u : DateTime} (h : t.seconds = u.seconds) (h' : t.time.nano = u.time.nano) :
        ¬t.Before u := by
      rintro (hlt | ⟨-, hlt⟩) <;> omega
    exact eq_of_not_before (hnot hseconds hnano) (hnot hseconds.symm hnano.symm)

/-- The time so many seconds after a midnight, if the calendar has it. -/
theorem settle?_eq_some_iff {date : Date} {second : Int} {nano : Nat}
    {h : nano < 2 * nanosPerSecond} {u : DateTime} :
    settle? date second nano h = some u ↔
      u.seconds = date.dayNumber * 86400 + second ∧ u.time.nano = nano := by
  have hsecond := u.time.second_lt
  rw [settle?, Option.map_eq_some_iff]
  constructor
  · rintro ⟨day, hday, rfl⟩
    have hnumber := Date.addDays?_eq_some_iff.1 hday
    refine ⟨?_, rfl⟩
    simp only [seconds]
    omega
  · rintro ⟨hseconds, hnano⟩
    simp only [seconds] at hseconds
    refine ⟨u.date, Date.addDays?_eq_some_iff.2 (by omega), ?_⟩
    rw [eq_iff_seconds]
    simp only [seconds]
    exact ⟨by omega, hnano.symm⟩

/-- A clock that is ahead shows the time that is so many seconds on. -/
theorem relabel?_eq_some_iff {t u : DateTime} {n : Int} :
    t.relabel? n = some u ↔ u.seconds = t.seconds + n ∧ u.time.nano = t.time.nano := by
  rw [relabel?, settle?_eq_some_iff, seconds, seconds]
  simp only [Int.add_assoc]

/-- Around the years of four digits the calendar goes on for a day at least. -/
theorem exists_relabel? {t : DateTime} (hyear : 0 ≤ t.date.year) (hyear' : t.date.year ≤ 9999)
    {n : Int} (hlow : -86400 < n) (hhigh : n < 86400) : ∃ u, t.relabel? n = some u := by
  have hsecond := t.time.second_lt
  have hday : ∃ e, t.date.addDays? ((t.time.second + n) / 86400) = some e := by
    have hbefore : (⟨-1, 1, 1, by decide⟩ : Date).dayNumber < t.date.dayNumber :=
      Date.dayNumber_lt (Or.inl (by simp only; omega))
    have hafter : t.date.dayNumber < (⟨10000, 1, 1, by decide⟩ : Date).dayNumber :=
      Date.dayNumber_lt (Or.inl (by simp only; omega))
    have hcases : ((t.time.second : Int) + n) / 86400 = -1 ∨
        ((t.time.second : Int) + n) / 86400 = 0 ∨ ((t.time.second : Int) + n) / 86400 = 1 := by
      omega
    rcases hcases with h | h | h
    · obtain ⟨e, he⟩ := Date.exists_previous?_of_lt hbefore
      have hstep := Date.dayNumber_previous? he
      exact ⟨e, Date.addDays?_eq_some_iff.2 (by omega)⟩
    · exact ⟨t.date, Date.addDays?_eq_some_iff.2 (by omega)⟩
    · obtain ⟨e, he⟩ := Date.exists_next?_of_lt hafter
      have hstep := Date.dayNumber_next? he
      exact ⟨e, Date.addDays?_eq_some_iff.2 (by omega)⟩
  obtain ⟨e, he⟩ := hday
  rw [relabel?, settle?, he]
  exact ⟨_, rfl⟩

/-! ### Moments -/

/-- The number of a moment that is shown by a clock so many seconds ahead of UTC. Every second
    has room for a leap second behind it. -/
def instant (t : DateTime) (ahead : Int) : Int :=
  (t.seconds - ahead) * (2 * nanosPerSecond) + t.time.nano

theorem instant_eq_iff {t u : DateTime} {ahead behind : Int} :
    t.instant ahead = u.instant behind ↔
      t.seconds - ahead = u.seconds - behind ∧ t.time.nano = u.time.nano := by
  have := t.time.nano_lt
  have := u.time.nano_lt
  simp only [instant, nanosPerSecond] at *
  omega

theorem before_iff_instant {t u : DateTime} : t.Before u ↔ t.instant 0 < u.instant 0 := by
  have := t.time.nano_lt
  have := u.time.nano_lt
  simp only [Before, instant, nanosPerSecond] at *
  omega

/-- A moment does not depend on the clock that shows it. -/
theorem instant_of_relabel? {t u : DateTime} {n : Int} (h : t.relabel? n = some u) (ahead : Int) :
    u.instant (ahead + n) = t.instant ahead := by
  obtain ⟨hseconds, hnano⟩ := relabel?_eq_some_iff.1 h
  exact instant_eq_iff.2 ⟨by omega, hnano⟩

end DateTime

end SessionLog
