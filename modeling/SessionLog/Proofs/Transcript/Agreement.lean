/-
  SessionLog/Proofs/Transcript/Agreement.lean
  ===========================================
  **Both ways to account for a transcript count the same.**

  An increment since the watermark of a start compares texts, a recount since the start
  compares times. Where the entries carry the stamps of a host and none falls on the very
  start, both let the same entries through; where usage has fresh input, both count it.
-/
import SessionLog.Proofs.Transcript.HostTime
import SessionLog.Proofs.Transcript.Increment

namespace SessionLog

open Transcript

namespace Moment

@[simp] theorem relabel?_utcTime (m : Moment) :
    m.localTime.relabel? (-m.offset.seconds) = some m.utcTime := (Option.some_get _).symm

@[simp] theorem nano_utcTime (m : Moment) : m.utcTime.time.nano = m.localTime.time.nano := by
  have h := m.relabel?_utcTime
  rw [DateTime.relabel?, DateTime.settle?] at h
  obtain ⟨date, -, hdate⟩ := Option.map_eq_some_iff.1 h
  rw [← hdate]

@[simp] theorem isLeapSecond_utcTime (m : Moment) :
    m.utcTime.time.isLeapSecond = m.localTime.time.isLeapSecond := by
  simp [TimeOfDay.isLeapSecond]

theorem startUtc?_eq_utcTime {m : Moment} (h : m.localTime.time.isLeapSecond = false) :
    startUtc? m.localTime m.offset = some m.utcTime := by
  rw [startUtc?, DateTime.addSeconds?_eq_relabel? h, m.relabel?_utcTime]

theorem watermark_eq_hostText (m : Moment) : m.watermark = m.utcTime.hostText := rfl

end Moment

namespace Transcript

/-! ### The same entries -/

/-- A host time that is not the start itself is after the watermark of the start if and
    only if it is not before the start. -/
theorem isNew_eq_isSince {m : Moment} (hleap : m.localTime.time.isLeapSecond = false)
    (hyear : 0 ≤ m.utcTime.date.year ∧ m.utcTime.date.year ≤ 9999) {entry : Entry}
    {t : DateTime} (ht : t.IsHostTime) (hstamp : entry.stampText = String.ofList t.hostText)
    (hne : t ≠ m.utcTime) :
    isNew (String.ofList m.watermark) entry = isSince m.localTime m.utcTime entry := by
  have hnotLeap := (Moment.isLeapSecond_utcTime m).trans hleap
  have htext : entry.stampText.toList = t.hostText := by rw [hstamp, String.toList_ofList]
  have hsince : isSince m.localTime m.utcTime entry = !decide (t.Before m.utcTime) := by
    have hnonempty : entry.stampText ≠ "" := by
      intro hempty
      rw [hempty] at htext
      exact absurd htext.symm (by simp [DateTime.hostText])
    simp [isSince, hnonempty, htext, ht.parse?_hostText]
  have hnew : isNew (String.ofList m.watermark) entry = true ↔ m.utcTime.Before t := by
    rw [Increment.isNew_iff, String.lt_iff, String.toList_ofList, htext, m.watermark_eq_hostText,
      ← DateTime.hostText_toMillis hnotLeap,
      DateTime.hostText_lt_iff (DateTime.isHostTime_toMillis hyear.1 hyear.2 hnotLeap) ht,
      ht.toMillis_before_iff]
  rw [hsince, Bool.eq_iff_iff, hnew]
  simp only [Bool.not_eq_true', decide_eq_false_iff_not]
  constructor
  · exact DateTime.Before.asymm
  · intro hbefore
    exact Decidable.byContradiction fun hafter =>
      hne (DateTime.eq_of_not_before hbefore hafter)

/-! ### The same counts -/

/-- Where all usage has fresh input, increments and recounts add alike. -/
theorem counts_foldl_step {found : List Entry}
    (h : ∀ entry ∈ found, ∀ usage ∈ entry.usage?, 0 < usage.tokens.input) {sum : Increment}
    {total : Recount} (hcounts : total.counts = sum.counts) :
    (found.foldl Recount.step total).counts = (found.foldl Increment.step sum).counts := by
  induction found generalizing sum total with
  | nil => exact hcounts
  | cons entry found ih =>
    apply ih fun e he => h e (List.mem_cons_of_mem _ he)
    have hcounted : Increment.counted? entry = entry.usage? := by
      cases husage : entry.usage? with
      | none => rw [Increment.counted?, husage, Option.filter_none]
      | some usage =>
        have hpos := h entry List.mem_cons_self usage husage
        rw [Increment.counted?, husage, Option.filter_some, if_pos (decide_eq_true hpos)]
    rw [Recount.step, Increment.step, hcounted, hcounts]

/-- Since the start of a session, outside of leap seconds and in a year of four digits, a
    recount comes to what the increment since the watermark of the start comes to: if all
    entries are stamped with host times other than the start, and all their usage has
    fresh input. -/
theorem recount_eq_increment (m : Moment) (content : List Char)
    (hleap : m.localTime.time.isLeapSecond = false)
    (hyear : 0 ≤ m.utcTime.date.year ∧ m.utcTime.date.year ≤ 9999)
    (hstamps : ∀ entry ∈ entries content, ∃ t : DateTime, t.IsHostTime ∧
      entry.stampText = String.ofList t.hostText ∧ t ≠ m.utcTime)
    (husage : ∀ entry ∈ entries content, ∀ usage ∈ entry.usage?, 0 < usage.tokens.input) :
    ∃ total, recount? content m.localTime m.offset = some total ∧
      total.counts = (increment content (String.ofList m.watermark)).counts := by
  refine ⟨_, by rw [recount?, Moment.startUtc?_eq_utcTime hleap, Option.map_some], ?_⟩
  have hfilter : (entries content).filter (isSince m.localTime m.utcTime) =
      (entries content).filter (isNew (String.ofList m.watermark)) := by
    apply List.filter_congr
    intro entry hentry
    obtain ⟨t, ht, hstamp, hne⟩ := hstamps entry hentry
    exact (isNew_eq_isSince hleap hyear ht hstamp hne).symm
  rw [hfilter, increment]
  apply counts_foldl_step
  · intro entry hentry
    exact husage entry (List.mem_filter.1 hentry).1
  · rfl

/-- New Year on a clock that is an hour ahead, at some part of a millisecond. -/
def newYear : Moment :=
  ⟨⟨⟨2026, 1, 1, by decide⟩, ⟨1800, 123456789, by decide, by decide⟩⟩,
    ⟨3600, by decide, by decide⟩, by decide, by decide⟩

/-- Two answers, in the millisecond of that start and in the next one. -/
def newYearContent : List Char :=
  ("\x7b\"timestamp\":\"2025-12-31T23:30:00.123Z\",\"usage\":\x7b\"input_tokens\":5\x7d\x7d\n"
    ++ "\x7b\"timestamp\":\"2025-12-31T23:30:00.124Z\",\"usage\":\x7b\"input_tokens\":7\x7d\x7d\n"
    ).toList

def newYearStamp (nano : Nat) (h : nano < 2 * nanosPerSecond) : DateTime :=
  ⟨⟨2025, 12, 31, by decide⟩, ⟨84600, nano, by decide, h⟩⟩

/-- The first answer is before the start, and the second one counts. -/
theorem recount_eq_increment_newYear :
    ∃ total, recount? newYearContent newYear.localTime newYear.offset = some total ∧
      total.counts = ⟨⟨7, 0, 0, 0⟩, 7⟩ ∧
      (increment newYearContent (String.ofList newYear.watermark)).counts =
        ⟨⟨7, 0, 0, 0⟩, 7⟩ := by
  have hstamps : ∀ entry ∈ entries newYearContent,
      entry.stampText = String.ofList (newYearStamp 123000000 (by decide)).hostText ∨
        entry.stampText = String.ofList (newYearStamp 124000000 (by decide)).hostText := by
    decide +kernel
  have hhost : ∀ entry ∈ entries newYearContent, ∃ t : DateTime, t.IsHostTime ∧
      entry.stampText = String.ofList t.hostText ∧ t ≠ newYear.utcTime := by
    intro entry hentry
    rcases hstamps entry hentry with h | h
    · exact ⟨_, ⟨by decide, by decide, by decide, by decide⟩, h, by decide⟩
    · exact ⟨_, ⟨by decide, by decide, by decide, by decide⟩, h, by decide⟩
  obtain ⟨total, htotal, hsame⟩ := recount_eq_increment newYear newYearContent (by decide)
    (by decide) hhost (by decide +kernel)
  have hcounts : (increment newYearContent (String.ofList newYear.watermark)).counts =
      ⟨⟨7, 0, 0, 0⟩, 7⟩ := by decide +kernel
  exact ⟨total, htotal, hsame.trans hcounts, hcounts⟩

end Transcript

end SessionLog
