/-
  SessionLog/Proofs/Transcript/Watermark.lean
  ===========================================
  **Watermarks stand in the order of their moments.**

  A watermark shows its moment in UTC to the last whole millisecond. Two of them compare as
  octets like the milliseconds, on whatever clocks the moments were told, and each is read
  back as the time of its millisecond.
-/
import SessionLog.Proofs.Text.Utf8.Order
import SessionLog.Proofs.Transcript.Agreement

namespace SessionLog

/-! ### Times by their nanoseconds -/

namespace DateTime

/-- The nanoseconds in front of a time that is in no leap second, over all days. -/
def nanos (t : DateTime) : Int := t.seconds * nanosPerSecond + t.time.nano

theorem before_iff_nanos {a b : DateTime} (ha : a.time.isLeapSecond = false)
    (hb : b.time.isLeapSecond = false) : a.Before b ↔ a.nanos < b.nanos := by
  have hlowA := TimeOfDay.isLeapSecond_eq_false.1 ha
  have hlowB := TimeOfDay.isLeapSecond_eq_false.1 hb
  simp only [Before, nanos, nanosPerSecond] at *
  omega

/-- The last whole millisecond of a time is its nanoseconds, floored. -/
@[simp] theorem nanos_toMillis (t : DateTime) : t.toMillis.nanos = t.nanos / 1000000 * 1000000 := by
  simp only [toMillis, nanos, seconds, nanosPerSecond]
  omega

end DateTime

namespace Moment

/-- The nanoseconds in front of a moment, whatever clock it is told on. -/
def nanos (m : Moment) : Int := m.localTime.nanos - m.offset.seconds * nanosPerSecond

/-- The whole milliseconds in front of a moment. -/
def millis (m : Moment) : Int := m.nanos / 1000000

/-- The moment is in no leap second, and its year in UTC has four digits. -/
structure IsOrdinary (m : Moment) : Prop where
  not_leap : m.localTime.time.isLeapSecond = false
  year_nonneg : 0 ≤ m.utcTime.date.year
  year_le : m.utcTime.date.year ≤ 9999

@[simp] theorem nanos_utcTime (m : Moment) : m.utcTime.nanos = m.nanos := by
  obtain ⟨hseconds, hnano⟩ := DateTime.relabel?_eq_some_iff.1 m.relabel?_utcTime
  simp only [DateTime.nanos, nanos, hseconds, hnano, nanosPerSecond]
  omega

variable {m : Moment}

theorem IsOrdinary.not_leap_utc (h : m.IsOrdinary) : m.utcTime.time.isLeapSecond = false :=
  m.isLeapSecond_utcTime.trans h.not_leap

theorem IsOrdinary.isHostTime (h : m.IsOrdinary) : m.utcTime.toMillis.IsHostTime :=
  DateTime.isHostTime_toMillis h.year_nonneg h.year_le h.not_leap_utc

/-- The watermark is the stamp of the last whole millisecond. -/
theorem IsOrdinary.watermark_eq (h : m.IsOrdinary) :
    m.watermark = m.utcTime.toMillis.hostText := by
  rw [watermark_eq_hostText, DateTime.hostText_toMillis h.not_leap_utc]

theorem nanos_toMillis_utcTime (m : Moment) : m.utcTime.toMillis.nanos = m.millis * 1000000 := by
  rw [DateTime.nanos_toMillis, nanos_utcTime, millis]

/-- The octets of two watermarks compare like the milliseconds of their moments, and a
    watermark is read back as the time of its millisecond: in UTC, in no leap second, and to
    the nanosecond. -/
theorem watermarks_in_order_of_millis {a b : Moment} (ha : a.IsOrdinary) (hb : b.IsOrdinary) :
    (Utf8.encode a.watermark < Utf8.encode b.watermark ↔ a.millis < b.millis) ∧
      ∃ t, Transcript.Stamp.parse? a.watermark = some (.zoned t) ∧
        t.time.isLeapSecond = false ∧ t.nanos = a.millis * 1000000 := by
  constructor
  · have hnanosA := a.nanos_toMillis_utcTime
    have hnanosB := b.nanos_toMillis_utcTime
    rw [Utf8.encode_lt_encode_iff, ha.watermark_eq, hb.watermark_eq,
      DateTime.hostText_lt_iff ha.isHostTime hb.isHostTime,
      DateTime.before_iff_nanos ha.isHostTime.not_leap hb.isHostTime.not_leap]
    omega
  · refine ⟨a.utcTime.toMillis, ?_, ha.isHostTime.not_leap, a.nanos_toMillis_utcTime⟩
    rw [ha.watermark_eq]
    exact ha.isHostTime.parse?_hostText

/-- The last instants of February in a leap year, on a clock behind UTC. -/
def leapDayBehind : Moment :=
  ⟨⟨⟨2028, 2, 29, by decide⟩, ⟨68399, 999999999, by decide, by decide⟩⟩,
    ⟨-18000, by decide, by decide⟩, by decide, by decide⟩

/-- A millisecond later, on a clock that is ahead by part of an hour. -/
def marchAhead : Moment :=
  ⟨⟨⟨2028, 3, 1, by decide⟩, ⟨20700, 500, by decide, by decide⟩⟩,
    ⟨20700, by decide, by decide⟩, by decide, by decide⟩

theorem watermarks_in_order_of_millis_endOfFebruary :
    (leapDayBehind.IsOrdinary ∧ marchAhead.IsOrdinary) ∧
      leapDayBehind.millis + 1 = marchAhead.millis ∧
      Utf8.encode leapDayBehind.watermark < Utf8.encode marchAhead.watermark ∧
      ∃ t, Transcript.Stamp.parse? leapDayBehind.watermark = some (.zoned t) ∧
        t.time.isLeapSecond = false ∧ t.nanos = leapDayBehind.millis * 1000000 := by
  have hbehind : leapDayBehind.IsOrdinary := ⟨by decide, by decide, by decide⟩
  have hahead : marchAhead.IsOrdinary := ⟨by decide, by decide, by decide⟩
  obtain ⟨horder, hread⟩ := watermarks_in_order_of_millis hbehind hahead
  exact ⟨⟨hbehind, hahead⟩, by decide, horder.2 (by decide), hread⟩

end Moment

end SessionLog
