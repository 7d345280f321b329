/-
  SessionLog/Proofs/Calendar/Date.lean
  ====================================
  **The row of all days runs through years, months and days in turn.**

  The days before a month of a year leave room for every month in front of it, and the
  days before a year for every year in front of it. So days are counted in the order of
  their dates, and no two dates have one place.
-/
import Mathlib.Tactic.IntervalCases
import SessionLog.Calendar.Date

namespace SessionLog

theorem isLeap_iff {year : Int} :
    isLeap year = true ↔ year % 4 = 0 ∧ (year % 100 ≠ 0 ∨ year % 400 = 0) := by
  simp [isLeap]

namespace Date

/-! ### Months and years in the row -/

/-- A month begins where the one in front of it ends. -/
theorem daysBeforeMonth_succ (year : Int) {month : Nat} (hmonth : 1 ≤ month) (hlt : month < 12) :
    daysBeforeMonth year (month + 1) = daysBeforeMonth year month + daysIn year month := by
  cases hleap : isLeap year <;> interval_cases month <;> simp [daysBeforeMonth, daysIn, hleap]

theorem daysBeforeMonth_add_le (year : Int) {month later : Nat} (hmonth : 1 ≤ month)
    (hlt : month < later) (hlater : later ≤ 12) :
    daysBeforeMonth year month + daysIn year month ≤ daysBeforeMonth year later := by
  induction later, hlt using Nat.le_induction with
  | base => exact Int.le_of_eq (daysBeforeMonth_succ year hmonth hlater).symm
  | succ later hle ih =>
    have hstep := daysBeforeMonth_succ year (by omega) hlater
    have := ih (by omega)
    omega

theorem daysBeforeMonth_last (year : Int) :
    daysBeforeMonth year 12 + daysIn year 12 = 365 + if isLeap year then 1 else 0 := by
  cases hleap : isLeap year <;> simp [daysBeforeMonth, daysIn, hleap]

theorem daysBeforeMonth_add_le_year (year : Int) {month : Nat} (hmonth : 1 ≤ month)
    (hle : month ≤ 12) :
    daysBeforeMonth year month + daysIn year month ≤ 365 + if isLeap year then 1 else 0 := by
  have hlast := daysBeforeMonth_last year
  rcases Nat.lt_or_eq_of_le hle with hlt | rfl
  · have := daysBeforeMonth_add_le year hmonth hlt (Nat.le_refl 12)
    omega
  · exact Int.le_of_eq hlast

theorem daysBeforeMonth_nonneg (year : Int) {month : Nat} (hmonth : 1 ≤ month) (hle : month ≤ 12) :
    0 ≤ daysBeforeMonth year month := by
  have hfirst : daysBeforeMonth year 1 = 0 := rfl
  rcases Nat.lt_or_eq_of_le hmonth with hlt | rfl
  · have := daysBeforeMonth_add_le year (Nat.le_refl 1) hlt hle
    omega
  · exact Int.le_of_eq hfirst.symm

theorem daysBeforeYear_succ (year : Int) :
    daysBeforeYear (year + 1) = daysBeforeYear year + (365 + if isLeap year then 1 else 0) := by
  simp only [daysBeforeYear, isLeap_iff]
  split <;> omega

theorem daysBeforeYear_add_le {year later : Int} (h : year < later) :
    daysBeforeYear year + (365 + if isLeap year then 1 else 0) ≤ daysBeforeYear later := by
  have hmono : daysBeforeYear (year + 1) ≤ daysBeforeYear later := by
    simp only [daysBeforeYear]
    omega
  exact Int.le_trans (Int.le_of_eq (daysBeforeYear_succ year).symm) hmono

/-! ### Dates in the row -/

theorem dayNumber_lt {a b : Date}
    (h : a.year < b.year ∨
      (a.year = b.year ∧ (a.month < b.month ∨ (a.month = b.month ∧ a.day < b.day)))) :
    a.dayNumber < b.dayNumber := by
  obtain ⟨-, ⟨hmonthA, hmonthA'⟩, -, hdayA⟩ := a.isDate
  obtain ⟨-, ⟨hmonthB, hmonthB'⟩, hdayB, -⟩ := b.isDate
  simp only [dayNumber]
  rcases h with hyear | ⟨hyear, hmonth | ⟨hmonth, hday⟩⟩
  · have hends := daysBeforeMonth_add_le_year a.year hmonthA hmonthA'
    have hyears := daysBeforeYear_add_le hyear
    have := daysBeforeMonth_nonneg b.year hmonthB hmonthB'
    omega
  · have hends := daysBeforeMonth_add_le a.year hmonthA hmonth hmonthB'
    rw [← hyear]
    omega
  · rw [← hyear, ← hmonth]
    omega

theorem dayNumber_lt_iff {a b : Date} :
    a.dayNumber < b.dayNumber ↔ a.year < b.year ∨
      (a.year = b.year ∧ (a.month < b.month ∨ (a.month = b.month ∧ a.day < b.day))) := by
  constructor
  · intro hlt
    apply Decidable.byContradiction
    intro hnot
    have hcases : (b.year < a.year ∨
        (b.year = a.year ∧ (b.month < a.month ∨ (b.month = a.month ∧ b.day < a.day)))) ∨
        (a.year = b.year ∧ a.month = b.month ∧ a.day = b.day) := by
      omega
    rcases hcases with hgt | ⟨hyear, hmonth, hday⟩
    · exact Int.lt_asymm hlt (dayNumber_lt hgt)
    · simp only [dayNumber, hyear, hmonth, hday, Int.lt_irrefl] at hlt
  · exact dayNumber_lt

/-- The whole calendar has less than 200 million days. -/
theorem natAbs_dayNumber_lt (d : Date) : d.dayNumber.natAbs < 100000000 := by
  obtain ⟨⟨hfirst, hlast⟩, ⟨hmonth, hmonth'⟩, hday, hday'⟩ := d.isDate
  have hlow := daysBeforeMonth_nonneg d.year hmonth hmonth'
  have hends := daysBeforeMonth_add_le_year d.year hmonth hmonth'
  simp only [dayNumber, daysBeforeYear, minYear, maxYear] at hfirst hlast ⊢
  split at hends <;> omega

theorem eq_iff {a b : Date} : a = b ↔ a.year = b.year ∧ a.month = b.month ∧ a.day = b.day := by
  cases a
  cases b
  simp only [mk.injEq]

theorem dayNumber_inj {a b : Date} : a.dayNumber = b.dayNumber ↔ a = b := by
  constructor
  · intro heq
    have hab := mt dayNumber_lt_iff.2 (Int.not_lt.2 (Int.le_of_eq heq.symm))
    have hba := mt dayNumber_lt_iff.2 (Int.not_lt.2 (Int.le_of_eq heq))
    rw [eq_iff]
    omega
  · rintro rfl
    rfl

end Date

end SessionLog
