/-
  SessionLog/Proofs/Calendar/DateTime.lean
  ========================================
  **Times in their order, and times told anew.**

  Times are ordered by day, second and nanosecond, and of two different times one is
  before the other. A time is made again from the fields that are shown of it, and is
  told the same on a clock that is not ahead.
-/
import SessionLog.Proofs.Calendar.Date
import SessionLog.Calendar.Moment
import SessionLog.Calendar.Parser

namespace SessionLog

/-! ### Fields of a time of day -/

namespace TimeOfDay

theorem hour_lt (t : TimeOfDay) : t.hour < 24 := by
  have := t.second_lt
  simp only [hour]
  omega

theorem minute_lt (t : TimeOfDay) : t.minute < 60 := Nat.mod_lt _ (by decide)

theorem shownSecond_le (t : TimeOfDay) : t.shownSecond ≤ 60 := by
  simp only [shownSecond]
  split <;> omega

theorem shownNano_lt (t : TimeOfDay) : t.shownNano < nanosPerSecond := Nat.mod_lt _ (by decide)

theorem isLeapSecond_eq_false {t : TimeOfDay} :
    t.isLeapSecond = false ↔ t.nano < nanosPerSecond := by
  simp [isLeapSecond]

theorem shownNano_of_not_leap {t : TimeOfDay} (h : t.isLeapSecond = false) :
    t.shownNano = t.nano := Nat.mod_eq_of_lt (isLeapSecond_eq_false.1 h)

/-- A time that can be shown is made again from what is shown of it. -/
theorem of?_shown {t : TimeOfDay} (h : t.LeapEndsMinute) :
    of? t.hour t.minute t.shownSecond t.shownNano = some t := by
  have hsecond := t.second_lt
  have hnano := t.nano_lt
  have hfields : t.hour < 24 ∧ t.minute < 60 ∧ t.shownSecond ≤ 60 ∧
      t.shownNano < nanosPerSecond :=
    ⟨t.hour_lt, t.minute_lt, t.shownSecond_le, t.shownNano_lt⟩
  rw [of?, dif_pos hfields]
  cases hleap : t.isLeapSecond with
  | false =>
    have hlow := isLeapSecond_eq_false.1 hleap
    have hshown : t.shownSecond = t.second % 60 := by simp [shownSecond, hleap]
    rw [if_neg (by omega)]
    congr 1
    cases t
    simp only [mk.injEq, hour, minute, shownNano, nanosPerSecond] at hshown hlow ⊢
    omega
  | true =>
    have hlast := h hleap
    have hshown : t.shownSecond = t.second % 60 + 1 := by simp [shownSecond, hleap]
    simp only [isLeapSecond, decide_eq_true_eq] at hleap
    rw [if_pos (by omega)]
    congr 1
    cases t
    simp only [mk.injEq, hour, minute, shownNano, nanosPerSecond] at hshown hlast hleap hnano ⊢
    omega

/-- A time that is made of fields can be shown: its leap second is the second of 60. -/
theorem leapEndsMinute_of_of? {hour minute second nano : Nat} {t : TimeOfDay}
    (h : of? hour minute second nano = some t) : t.LeapEndsMinute := by
  intro hleap
  rw [of?] at h
  split at h
  · rename_i hfields
    split at h
    · cases h
      simp only
      omega
    · cases h
      exact absurd hleap (Bool.eq_false_iff.1 (isLeapSecond_eq_false.2 hfields.2.2.2))
  · cases h

end TimeOfDay

@[simp] theorem Date.of?_fields (d : Date) : Date.of? d.year d.month d.day = some d :=
  dif_pos d.isDate

namespace DateTime

theorem of?_shown {t : DateTime} (h : t.time.LeapEndsMinute) :
    of? t.date.year t.date.month t.date.day t.time.hour t.time.minute t.time.shownSecond
      t.time.shownNano = some t := by
  simp only [of?, Date.of?_fields, TimeOfDay.of?_shown h]
  rfl

/-! ### Order -/

theorem before_iff {a b : DateTime} :
    a.Before b ↔ a.date.dayNumber < b.date.dayNumber ∨
      (a.date = b.date ∧ (a.time.second < b.time.second ∨
        (a.time.second = b.time.second ∧ a.time.nano < b.time.nano))) := by
  have := a.time.second_lt
  have := b.time.second_lt
  rw [← Date.dayNumber_inj]
  simp only [Before, seconds]
  omega

theorem eq_of_not_before {a b : DateTime} (hab : ¬a.Before b) (hba : ¬b.Before a) : a = b := by
  rw [before_iff] at hab hba
  rw [← Date.dayNumber_inj] at hab hba
  have hdate : a.date = b.date := Date.dayNumber_inj.1 (by omega)
  rw [hdate] at hab hba
  obtain ⟨_, time⟩ := a
  obtain ⟨_, time'⟩ := b
  obtain rfl : _ = _ := hdate
  cases time
  cases time'
  simp only [mk.injEq, TimeOfDay.mk.injEq, true_and] at hab hba ⊢
  omega

theorem Before.asymm {a b : DateTime} (h : a.Before b) : ¬b.Before a := by
  simp only [Before] at h ⊢
  omega

/-! ### Time between -/

theorem natAbs_secondsBetween_lt (start stop : DateTime) :
    (secondsBetween start stop).natAbs < 20000000000000 := by
  have hstart := start.date.natAbs_dayNumber_lt
  have hstop := stop.date.natAbs_dayNumber_lt
  have := start.time.second_lt
  have := stop.time.second_lt
  have := start.time.nano_lt
  have := stop.time.nano_lt
  have hnanos : (nanosBetween start stop).natAbs < 20000000000000 * nanosPerSecond := by
    simp only [nanosBetween, seconds, nanosPerSecond] at *
    split
    · omega
    · split <;> omega
  rw [secondsBetween, Int.natAbs_tdiv, Int.natAbs_natCast]
  exact Nat.div_lt_of_lt_mul (by rwa [Nat.mul_comm])

/-! ### Moving in time -/

/-- Within its day a time stays on it. -/
theorem settle?_of_lt (date : Date) {second : Nat} (hsecond : second < 86400) {nano : Nat}
    (hnano : nano < 2 * nanosPerSecond) :
    settle? date second nano hnano = some ⟨date, ⟨second, nano, hsecond, hnano⟩⟩ := by
  have hday : (second : Int) / 86400 = 0 := by omega
  simp only [settle?, hday]
  have hstay : date.addDays? 0 = some date := rfl
  rw [hstay, Option.map_some]
  congr 3
  omega

@[simp] theorem relabel?_zero (t : DateTime) : t.relabel? 0 = some t := by
  rw [relabel?, Int.add_zero, settle?_of_lt _ t.time.second_lt]

/-- Outside of leap seconds a time so much later is the time told on a clock so much
    ahead. -/
theorem addSeconds?_eq_relabel? {t : DateTime} (h : t.time.isLeapSecond = false) (n : Int) :
    t.addSeconds? n = t.relabel? n := by
  rw [addSeconds?, if_neg (by simp [h])]
  rfl

end DateTime

end SessionLog
