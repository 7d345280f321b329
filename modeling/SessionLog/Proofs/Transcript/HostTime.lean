/-
  SessionLog/Proofs/Transcript/HostTime.lean
  ==========================================
  **Stamps as a host writes them: in UTC, to the millisecond, with a `Z`.**

  Such a stamp has fields of fixed width, the greatest unit first. So stamps have as
  texts the order of their times, and each is read back as its moment. The watermark of
  a moment is the stamp of the last whole millisecond, and a host time lies after that
  one if and only if it lies after the moment itself.
-/
import SessionLog.Proofs.Calendar.Zoned

namespace SessionLog

open Text

namespace DateTime

/-- A time that a host gives to its entries: its year has four digits and its fraction
    three, and it is in no leap second. -/
structure IsHostTime (t : DateTime) : Prop where
  year_nonneg : 0 ≤ t.date.year
  year_le : t.date.year ≤ 9999
  not_leap : t.time.isLeapSecond = false
  millis : t.time.nano % 1000000 = 0

/-- The stamp of a time: `YYYY-MM-DDTHH:MM:SS.mmmZ`. -/
def hostText (t : DateTime) : List Char := t.toSecondsText ++ t.time.fractionText 3 ++ ['Z']

example : hostText ⟨⟨2026, 1, 20, by decide⟩, ⟨68292, 7000000, by decide, by decide⟩⟩ =
    "2026-01-20T18:58:12.007Z".toList := by decide

/-- The last whole millisecond of a time. -/
def toMillis (t : DateTime) : DateTime :=
  ⟨t.date, ⟨t.time.second, t.time.nano - t.time.nano % 1000000, t.time.second_lt,
    Nat.lt_of_le_of_lt (Nat.sub_le _ _) t.time.nano_lt⟩⟩

/-! ### Whole milliseconds -/

theorem isHostTime_toMillis {t : DateTime} (hyear : 0 ≤ t.date.year) (hyear' : t.date.year ≤ 9999)
    (hleap : t.time.isLeapSecond = false) : t.toMillis.IsHostTime where
  year_nonneg := hyear
  year_le := hyear'
  not_leap := by
    have := TimeOfDay.isLeapSecond_eq_false.1 hleap
    exact TimeOfDay.isLeapSecond_eq_false.2 (Nat.lt_of_le_of_lt (Nat.sub_le _ _) this)
  millis := by
    simp only [toMillis]
    omega

theorem fractionText_three (t : TimeOfDay) :
    t.fractionText 3 = '.' :: padded 3 (t.shownNano / 1000000) :=
  DateTime.fractionText_eq 3 t

theorem hostText_toMillis {t : DateTime} (hleap : t.time.isLeapSecond = false) :
    t.toMillis.hostText = t.hostText := by
  have hlow := TimeOfDay.isLeapSecond_eq_false.1 hleap
  have hleap' : t.toMillis.time.isLeapSecond = false :=
    TimeOfDay.isLeapSecond_eq_false.2 (Nat.lt_of_le_of_lt (Nat.sub_le _ _) hlow)
  have htext : t.toMillis.time.text = t.time.text := by
    simp only [TimeOfDay.text, TimeOfDay.shownSecond, hleap, hleap']
    rfl
  have hmilli : t.toMillis.time.nano / 1000000 = t.time.nano / 1000000 := by
    simp only [toMillis]
    omega
  have hfraction : t.toMillis.time.fractionText 3 = t.time.fractionText 3 := by
    rw [fractionText_three, fractionText_three, TimeOfDay.shownNano_of_not_leap hleap,
      TimeOfDay.shownNano_of_not_leap hleap', hmilli]
  rw [hostText, hostText, toSecondsText, toSecondsText, htext, hfraction]
  rfl

/-- A host time is after a time if and only if it is after its last whole millisecond. -/
theorem IsHostTime.toMillis_before_iff {t : DateTime} (h : t.IsHostTime) (start : DateTime) :
    start.toMillis.Before t ↔ start.Before t := by
  have hmillis := h.millis
  simp only [Before, seconds, toMillis]
  omega

/-! ### Order -/

/-- A field of a stamp and the character behind it. -/
theorem padded_cons_lt_iff {width a b : Nat} (hwidth : 0 < width) (ha : a < 10 ^ width)
    (hb : b < 10 ^ width) (c : Char) (u v : List Char) :
    padded width a ++ c :: u < padded width b ++ c :: v ↔ a < b ∨ (a = b ∧ u < v) := by
  have hcons : c :: u < c :: v ↔ u < v := by
    rw [List.cons_lt_cons_iff]
    simp
  rw [padded_lt_padded_iff hwidth ha hb, hcons]

theorem IsHostTime.hostText_eq {t : DateTime} (h : t.IsHostTime) :
    t.hostText = padded 4 t.date.year.toNat ++ '-' :: (padded 2 t.date.month ++ '-' ::
      (padded 2 t.date.day ++ 'T' :: (padded 2 t.time.hour ++ ':' ::
        (padded 2 t.time.minute ++ ':' :: (padded 2 (t.time.second % 60) ++ '.' ::
          (padded 3 (t.time.nano / 1000000) ++ ['Z'])))))) := by
  have hyear : yearText t.date.year = padded 4 t.date.year.toNat :=
    if_pos ⟨h.year_nonneg, h.year_le⟩
  have hsecond : t.time.shownSecond = t.time.second % 60 := by
    simp [TimeOfDay.shownSecond, h.not_leap]
  have hfraction : t.time.fractionText 3 = '.' :: padded 3 (t.time.nano / 1000000) := by
    rw [fractionText_three, TimeOfDay.shownNano_of_not_leap h.not_leap]
  simp [hostText, toSecondsText, Date.text, TimeOfDay.text, hfraction, hyear, hsecond]

/-- Stamps stand in the order of their times. -/
theorem hostText_lt_iff {a b : DateTime} (ha : a.IsHostTime) (hb : b.IsHostTime) :
    a.hostText < b.hostText ↔ a.Before b := by
  have hyearA := ha.year_nonneg
  have hyearB := hb.year_nonneg
  have hyearA' := ha.year_le
  have hyearB' := hb.year_le
  have hmillisA := ha.millis
  have hmillisB := hb.millis
  have hnanoA := TimeOfDay.isLeapSecond_eq_false.1 ha.not_leap
  have hnanoB := TimeOfDay.isLeapSecond_eq_false.1 hb.not_leap
  simp only [nanosPerSecond] at hnanoA hnanoB
  have hend : ¬['Z'] < ['Z'] := by decide
  rw [ha.hostText_eq, hb.hostText_eq,
    padded_cons_lt_iff (by decide) (by omega) (by omega),
    padded_cons_lt_iff (by decide) (month_lt _) (month_lt _),
    padded_cons_lt_iff (by decide) (day_lt _) (day_lt _),
    padded_cons_lt_iff (by decide) (Nat.lt_trans a.time.hour_lt (by decide))
      (Nat.lt_trans b.time.hour_lt (by decide)),
    padded_cons_lt_iff (by decide) (Nat.lt_trans a.time.minute_lt (by decide))
      (Nat.lt_trans b.time.minute_lt (by decide)),
    padded_cons_lt_iff (by decide) (by omega) (by omega),
    padded_lt_padded_iff (by decide) (by omega) (by omega), before_iff, Date.dayNumber_lt_iff]
  rw [Date.eq_iff]
  simp only [hend, and_false, or_false, TimeOfDay.hour, TimeOfDay.minute]
  omega

/-! ### Reading -/

/-- With an offset of zero spelled out, the stamp of a host time is read as that time. -/
theorem IsHostTime.parseZoned? {t : DateTime} (h : t.IsHostTime) :
    DateTime.parseZoned? (t.toSecondsText ++ t.time.fractionText 3 ++
      ['+', '0', '0', ':', '0', '0']) = some (t, 0) := by
  have hmillis : t.time.shownNano / 10 ^ (9 - 3) * 10 ^ (9 - 3) = t.time.shownNano := by
    rw [TimeOfDay.shownNano_of_not_leap h.not_leap]
    exact Nat.div_mul_cancel (Nat.dvd_of_mod_eq_zero h.millis)
  have hleap : t.time.LeapEndsMinute := by
    intro hleap
    rw [h.not_leap] at hleap
    cases hleap
  have hnanos := nanos?_fractionText (by decide : 0 < 3) (by decide) t.time
    (NoDigit.cons (c := '+') rfl ['0', '0', ':', '0', '0'])
  rw [hmillis] at hnanos
  rw [List.append_assoc]
  exact parseZoned?_toSecondsText h.year_nonneg h.year_le hleap hnanos rfl

theorem IsHostTime.parse?_hostText {t : DateTime} (h : t.IsHostTime) :
    Transcript.Stamp.parse? t.hostText = some (.zoned t) := by
  have hspelled : Transcript.Stamp.spellZulu t.hostText =
      t.toSecondsText ++ t.time.fractionText 3 ++ ['+', '0', '0', ':', '0', '0'] := by
    rw [Transcript.Stamp.spellZulu, hostText, List.getLast?_concat, if_pos rfl,
      List.dropLast_concat]
  have hmoment : Transcript.Stamp.moment? (t.toSecondsText ++ t.time.fractionText 3 ++
      ['+', '0', '0', ':', '0', '0']) = some t := by
    rw [Transcript.Stamp.moment?, h.parseZoned?]
    exact relabel?_zero t
  simp only [Transcript.Stamp.parse?, hspelled, hmoment]

end DateTime

end SessionLog
