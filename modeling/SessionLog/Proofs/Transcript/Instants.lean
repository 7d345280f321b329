/-
  SessionLog/Proofs/Transcript/Instants.lean
  ==========================================
  **A recount goes by moments, not by the texts of stamps.**

  A stamp says a time and perhaps the offset of its clock; without one the clock is that of
  the session. An entry counts if its moment is not before the start. So a stamp may be
  written on any other clock, and the start may be told on one, and the recount is the same.
-/
import SessionLog.Proofs.Calendar.Zoned
import SessionLog.Proofs.Transcript.Agreement
import SessionLog.Proofs.Transcript.Totals

namespace SessionLog

open Transcript

namespace Transcript.Stamp

/-! ### What a stamp says -/

/-- The time that is shown, and how far the clock is ahead of UTC if the stamp says so. -/
def said? (text : List Char) : Option (DateTime × Option Int) :=
  match DateTime.parseZoned? (spellZulu text) with
  | some (shown, ahead) => some (shown, some ahead)
  | none => (DateTime.parsePlain? (spellZulu text)).map fun shown => (shown, none)

theorem said?_zoned_iff {text : List Char} {shown : DateTime} {ahead : Int} :
    said? text = some (shown, some ahead) ↔
      DateTime.parseZoned? (spellZulu text) = some (shown, ahead) := by
  rw [said?]
  cases DateTime.parseZoned? (spellZulu text) with
  | none => simp
  | some read => simp [Prod.ext_iff]

theorem parse?_of_said?_zoned {text : List Char} {shown : DateTime} {ahead : Int}
    (h : said? text = some (shown, some ahead)) :
    ∃ utc, parse? text = some (.zoned utc) ∧ utc.instant 0 = shown.instant ahead := by
  have hzoned := said?_zoned_iff.1 h
  obtain ⟨utc, hutc, hinstant⟩ := DateTime.exists_utc_of_parseZoned? hzoned
  have hmoment : moment? (spellZulu text) = some utc := by
    rw [moment?, hzoned]
    exact hutc
  exact ⟨utc, by simp only [parse?, hmoment], hinstant⟩

theorem parse?_of_parseZoned?_none {text : List Char}
    (h : DateTime.parseZoned? (spellZulu text) = none) :
    parse? text = (DateTime.parsePlain? (spellZulu text)).map .plain := by
  have hmoment : moment? (spellZulu text) = none := by
    rw [moment?, h]
    rfl
  simp only [parse?, hmoment]

theorem parse?_of_said?_plain {text : List Char} {shown : DateTime}
    (h : said? text = some (shown, none)) : parse? text = some (.plain shown) := by
  rw [said?] at h
  split at h
  · cases h
  · rename_i hzoned
    obtain ⟨read, hread, hsaid⟩ := Option.map_eq_some_iff.1 h
    cases hsaid
    rw [parse?_of_parseZoned?_none hzoned, hread, Option.map_some]

theorem parse?_of_said?_none {text : List Char} (h : said? text = none) : parse? text = none := by
  rw [said?] at h
  split at h
  · cases h
  · rename_i hzoned
    rw [parse?_of_parseZoned?_none hzoned, Option.map_eq_none_iff.1 h, Option.map_none]

/-! ### Written stamps -/

/-- The text of a time on a clock that is so many seconds ahead of UTC, with a year of four
    digits, any spelling of the fraction and any of the offset. -/
structure IsTextOf (shown : DateTime) (ahead : Int) (text : List Char) : Prop where
  year_nonneg : 0 ≤ shown.date.year
  year_le : shown.date.year ≤ 9999
  exists_parts : ∃ fraction zone, DateTime.IsFractionText shown.time.shownNano fraction ∧
    DateTime.IsOffsetText ahead zone ∧ text = shown.toSecondsText ++ (fraction ++ zone)

/-- A `Z` is spelled out, and every other offset is spelled already. -/
theorem exists_spelled {ahead : Int} {zone : List Char} (h : DateTime.IsOffsetText ahead zone)
    (front : List Char) :
    ∃ sign clock, spellZulu (front ++ zone) = front ++ sign :: clock ∧
      (sign = '+' ∨ sign = '-') ∧ DateTime.offset? (sign :: clock) = some (ahead, []) := by
  have hkept (sign : Char) (hours minutes : Nat) :
      spellZulu (front ++ sign :: DateTime.clockText hours minutes) =
        front ++ sign :: DateTime.clockText hours minutes := by
    have hparts : front ++ sign :: DateTime.clockText hours minutes =
        front ++ sign :: (Text.padded 2 hours ++ [':']) ++ Text.padded 2 minutes := by
      simp [DateTime.clockText]
    have hlast : (front ++ sign :: DateTime.clockText hours minutes).getLast? =
        (Text.padded 2 minutes).getLast? := by
      rw [hparts, List.getLast?_append_of_ne_nil _ (Text.padded_ne_nil 2 minutes)]
    rw [spellZulu, hlast, if_neg]
    intro hzulu
    have hdigit := Text.allDigits_padded 2 minutes 'Z' (List.mem_of_getLast? hzulu)
    cases hdigit
  cases h with
  | zulu =>
    refine ⟨'+', ['0', '0', ':', '0', '0'], ?_, Or.inl rfl, rfl⟩
    rw [spellZulu, List.getLast?_concat, if_pos rfl, List.dropLast_concat]
  | ahead hhours hminutes =>
    exact ⟨'+', _, hkept '+' _ _, Or.inl rfl, (DateTime.offset?_clockText hhours hminutes).1⟩
  | behind hhours hminutes =>
    exact ⟨'-', _, hkept '-' _ _, Or.inr rfl, (DateTime.offset?_clockText hhours hminutes).2⟩

theorem said?_of_isTextOf {shown : DateTime} {ahead : Int} {text : List Char}
    (h : IsTextOf shown ahead text) (hleap : shown.time.LeapEndsMinute) :
    said? text = some (shown, some ahead) := by
  obtain ⟨fraction, zone, hfraction, hzone, rfl⟩ := h.exists_parts
  obtain ⟨sign, clock, hspelled, hsign, hoffset⟩ :=
    exists_spelled hzone (shown.toSecondsText ++ fraction)
  have hnanos : DateTime.nanos? (fraction ++ sign :: clock) =
      some (shown.time.shownNano, sign :: clock) := by
    apply DateTime.nanos?_of_isFractionText hfraction
    · rcases hsign with rfl | rfl <;> exact Text.NoDigit.cons rfl _
    · rcases hsign with rfl | rfl <;> exact fun hpoint => absurd hpoint (by simp)
  rw [said?, ← List.append_assoc, hspelled, List.append_assoc,
    DateTime.parseZoned?_toSecondsText h.year_nonneg h.year_le hleap hnanos hoffset]

end Transcript.Stamp

/-! ### Moments -/

namespace DateTime

theorem IsOffsetText.emod_sixty {ahead : Int} {zone : List Char} (h : IsOffsetText ahead zone) :
    ahead % 60 = 0 := by
  cases h <;> omega

/-- On clocks that are ahead by whole minutes a leap second ends a minute on each of them or
    on none. -/
theorem leapEndsMinute_of_instant {t u : DateTime} {ahead behind : Int}
    (h : t.instant ahead = u.instant behind) (hahead : ahead % 60 = 0) (hbehind : behind % 60 = 0)
    (hleap : u.time.LeapEndsMinute) : t.time.LeapEndsMinute := by
  obtain ⟨hseconds, hnano⟩ := instant_eq_iff.1 h
  intro hlate
  have hlast := hleap (by rw [TimeOfDay.isLeapSecond, ← hnano]; exact hlate)
  simp only [seconds] at hseconds
  omega

theorem instant_le_iff {t u : DateTime} (ahead : Int) :
    t.instant ahead ≤ u.instant ahead ↔ ¬u.Before t := by
  rw [before_iff_instant]
  simp only [instant, nanosPerSecond]
  omega

end DateTime

namespace Moment

def instant (m : Moment) : Int := m.localTime.instant m.offset.seconds

theorem instant_utcTime (m : Moment) : m.utcTime.instant 0 = m.instant := by
  have h := DateTime.instant_of_relabel? m.relabel?_utcTime m.offset.seconds
  rwa [Int.add_right_neg] at h

end Moment

namespace Transcript

/-! ### Entries from a moment on -/

/-- An entry counts from a moment on if it has no stamp or one that tells no earlier moment. A
    stamp without an offset tells a time on the clock of the moment; one that tells no time
    does not count. -/
def Entry.CountsFrom (m : Moment) (entry : Entry) : Prop :=
  entry.stampText = "" ∨ ∃ said ∈ Stamp.said? entry.stampText.toList,
    m.instant ≤ said.1.instant (said.2.getD m.offset.seconds)

instance (m : Moment) (entry : Entry) : Decidable (entry.CountsFrom m) :=
  inferInstanceAs (Decidable (_ ∨ ∃ said ∈ Stamp.said? entry.stampText.toList, _))

/-- The stamp tells a time, but not on which clock. -/
def Entry.IsLocal (entry : Entry) : Prop :=
  ∃ said ∈ Stamp.said? entry.stampText.toList, said.2 = none

instance (entry : Entry) : Decidable entry.IsLocal :=
  inferInstanceAs (Decidable (∃ said ∈ Stamp.said? entry.stampText.toList, _))

theorem isSince_iff_countsFrom {m : Moment} {entry : Entry} :
    isSince m.localTime m.utcTime entry = true ↔ entry.CountsFrom m := by
  rw [isSince, Entry.CountsFrom]
  by_cases hempty : entry.stampText = ""
  · simp [hempty]
  · rw [if_neg hempty, or_iff_right hempty]
    cases hsaid : Stamp.said? entry.stampText.toList with
    | none =>
      rw [Stamp.parse?_of_said?_none hsaid]
      simp
    | some said =>
      obtain ⟨shown, _ | ahead⟩ := said
      · rw [Stamp.parse?_of_said?_plain hsaid]
        simp [Moment.instant, DateTime.instant_le_iff]
      · obtain ⟨utc, hparse, hinstant⟩ := Stamp.parse?_of_said?_zoned hsaid
        rw [hparse]
        simp [← hinstant, ← m.instant_utcTime, DateTime.instant_le_iff]

theorem recount?_eq_some {m : Moment} (hleap : m.localTime.time.isLeapSecond = false)
    (content : List Char) :
    recount? content m.localTime m.offset =
      some (((entries content).filter fun entry => entry.CountsFrom m).foldl
        Recount.step .start) := by
  have hfilter : (entries content).filter (isSince m.localTime m.utcTime) =
      (entries content).filter fun entry => entry.CountsFrom m := by
    apply List.filter_congr
    intro entry _
    rw [Bool.eq_iff_iff, isSince_iff_countsFrom, decide_eq_true_iff]
  rw [recount?, Moment.startUtc?_eq_utcTime hleap, Option.map_some, hfilter]

/-- Of a time that is told with its offset the moment alone counts, on whatever clock. -/
theorem Entry.countsFrom_iff_of_instant {m m' : Moment} (hinstant : m'.instant = m.instant)
    {entry : Entry} (hlocal : ¬entry.IsLocal) : entry.CountsFrom m' ↔ entry.CountsFrom m := by
  rw [CountsFrom, CountsFrom, hinstant]
  refine or_congr_right ?_
  cases hsaid : Stamp.said? entry.stampText.toList with
  | none => simp
  | some said =>
    obtain ⟨shown, _ | ahead⟩ := said
    · exact absurd ⟨_, hsaid, rfl⟩ hlocal
    · simp

/-- From a later moment on, told with the same offset, no more entries count. -/
theorem Entry.CountsFrom.of_le {m later : Moment} (hoffset : later.offset = m.offset)
    (hle : m.instant ≤ later.instant) {entry : Entry} (h : entry.CountsFrom later) :
    entry.CountsFrom m := by
  rcases h with hempty | ⟨said, hsaid, hsince⟩
  · exact Or.inl hempty
  · rw [hoffset] at hsince
    exact Or.inr ⟨said, hsaid, Int.le_trans hle hsince⟩

/-! ### Stamps written anew -/

/-- An entry as it is, or with its stamp written on another clock: if the stamp tells its
    offset, as the text of the same moment. -/
inductive Entry.Respells (entry : Entry) : Entry → Prop
  | same : Respells entry entry
  | stamp {shown shown' : DateTime} {ahead ahead' : Int} {text : List Char}
      (hsaid : Stamp.said? entry.stampText.toList = some (shown, some ahead))
      (hinstant : shown'.instant ahead' = shown.instant ahead)
      (htext : Stamp.IsTextOf shown' ahead' text) :
      Respells entry { entry with stamp := some (String.ofList text) }

theorem Entry.Respells.countsFrom_iff {entry other : Entry} (h : entry.Respells other)
    (m : Moment) : other.CountsFrom m ↔ entry.CountsFrom m := by
  cases h with
  | same => exact Iff.rfl
  | @stamp shown shown' ahead ahead' text hsaid hinstant htext =>
    obtain ⟨-, hleap, -, -, hsixty⟩ := DateTime.parseZoned?_bounds (Stamp.said?_zoned_iff.1 hsaid)
    obtain ⟨fraction, zone, -, hzone, -⟩ := htext.exists_parts
    have hleap' := DateTime.leapEndsMinute_of_instant hinstant hzone.emod_sixty hsixty hleap
    have hsaid' : Stamp.said? (String.ofList text).toList = some (shown', some ahead') := by
      rw [String.toList_ofList]
      exact Stamp.said?_of_isTextOf htext hleap'
    have hempty {given : String} {said : DateTime × Option Int}
        (h : Stamp.said? given.toList = some said) : given ≠ "" := by
      rintro rfl
      cases h
    have hstamp : ({ entry with stamp := some (String.ofList text) } : Entry).stampText =
        String.ofList text := rfl
    rw [CountsFrom, CountsFrom, hstamp, or_iff_right (hempty hsaid'), or_iff_right (hempty hsaid),
      hsaid', hsaid]
    simp [hinstant]

theorem Entry.Respells.step_eq {entry other : Entry} (h : entry.Respells other) (sum : Recount) :
    sum.step other = sum.step entry := by
  cases h <;> rfl

theorem foldl_step_respelled {m : Moment} {found others : List Entry}
    (h : List.Forall₂ Entry.Respells found others) (sum : Recount) :
    (others.filter fun entry => entry.CountsFrom m).foldl Recount.step sum =
      (found.filter fun entry => entry.CountsFrom m).foldl Recount.step sum := by
  induction h generalizing sum with
  | nil => rfl
  | @cons entry other found others hrespells _ ih =>
    have hcounts := hrespells.countsFrom_iff m
    by_cases hentry : entry.CountsFrom m
    · simp [hcounts, hentry, hrespells.step_eq, ih]
    · simp [hcounts, hentry, ih]

/-- Since a start outside of leap seconds a recount goes by moments. Its tokens are the exact
    total of the usages of the entries that count from the start on. It stays the same when
    stamps are written on other clocks and, if no stamp is told without an offset, when the
    start is told on another clock. A later start with the same offset gives no more tokens. -/
theorem recount_by_instant (m : Moment) (hleap : m.localTime.time.isLeapSecond = false)
    (content : List Char) :
    ∃ total, recount? content m.localTime m.offset = some total ∧
      (∀ other, List.Forall₂ Entry.Respells (entries content) (entries other) →
        recount? other m.localTime m.offset = some total) ∧
      (∀ (moved : Moment) (n : Int), m.localTime.addSeconds? n = some moved.localTime →
        moved.offset.seconds = m.offset.seconds + n →
        (∀ entry ∈ entries content, ¬entry.IsLocal) →
        recount? content moved.localTime moved.offset = some total) ∧
      IsTotalOf total.counts.tokens
        (((entries content).filter fun entry => entry.CountsFrom m).filterMap
          Entry.toldUsage?) ∧
      ∀ later : Moment, later.localTime.time.isLeapSecond = false → later.offset = m.offset →
        ¬later.localTime.Before m.localTime →
        ∃ less, recount? content later.localTime later.offset = some less ∧
          less.counts.tokens ≤ total.counts.tokens := by
  have htotal (start : Moment) :
      IsTotalOf (((entries content).filter fun entry => entry.CountsFrom start).foldl Recount.step
          .start).counts.tokens
        (((entries content).filter fun entry => entry.CountsFrom start).filterMap
          Entry.toldUsage?) := by
    rw [Recount.counts_foldl_step, funext usage?_eq_toldUsage?]
    exact Counts.isTotalOf_ofUsages _
  refine ⟨_, recount?_eq_some hleap content, ?_, ?_, htotal m, ?_⟩
  · intro other hrespells
    rw [recount?_eq_some hleap other, foldl_step_respelled hrespells]
  · intro moved n hmoved hoffset hlocal
    rw [DateTime.addSeconds?_eq_relabel? hleap] at hmoved
    have hinstant : moved.instant = m.instant := by
      rw [Moment.instant, hoffset]
      exact DateTime.instant_of_relabel? hmoved _
    have hnano := (DateTime.relabel?_eq_some_iff.1 hmoved).2
    have hleap' : moved.localTime.time.isLeapSecond = false := by
      rw [TimeOfDay.isLeapSecond, hnano]
      exact hleap
    rw [recount?_eq_some hleap']
    congr 2
    apply List.filter_congr
    intro entry hentry
    rw [Bool.eq_iff_iff, decide_eq_true_iff, decide_eq_true_iff]
    exact Entry.countsFrom_iff_of_instant hinstant (hlocal entry hentry)
  · intro later hleap' hoffset hlater
    refine ⟨_, recount?_eq_some hleap' content, (htotal later).le_of_sublist (htotal m) ?_⟩
    have hle : m.instant ≤ later.instant := by
      rw [Moment.instant, Moment.instant, hoffset]
      exact (DateTime.instant_le_iff _).2 hlater
    apply List.Sublist.filterMap
    apply List.monotone_filter_right
    intro entry hentry
    exact decide_eq_true (Entry.CountsFrom.of_le hoffset hle (of_decide_eq_true hentry))

/-- Twenty past midnight on the first of March, on a clock five and a half hours ahead. In UTC
    it is the leap day. -/
def firstOfMarch : Moment :=
  ⟨⟨⟨2024, 3, 1, by decide⟩, ⟨1200, 700, by decide, by decide⟩⟩, ⟨19800, by decide, by decide⟩,
    by decide, by decide⟩

/-- The same moment half an hour behind UTC. -/
def firstOfMarchMoved : Moment :=
  ⟨⟨⟨2024, 2, 29, by decide⟩, ⟨66000, 700, by decide, by decide⟩⟩,
    ⟨-1800, by decide, by decide⟩, by decide, by decide⟩

def firstOfMarchLater : Moment :=
  ⟨⟨⟨2024, 3, 1, by decide⟩, ⟨1201, 700, by decide, by decide⟩⟩, ⟨19800, by decide, by decide⟩,
    by decide, by decide⟩

/-- An answer with seven tokens of input. -/
def answer (stamp : String) : Entry := ⟨some stamp, none, some ⟨some 7, none, none, none⟩⟩

def answerLine (stamp : String) : List Char :=
  ("\x7b\"timestamp\":\"" ++ stamp ++ "\",\"usage\":\x7b\"input_tokens\":7\x7d\x7d").toList

/-- Messages cannot be told apart by a decision, but whether there is one can. -/
theorem eq_answer {found : List Entry} {stamp : String}
    (h : found.map (fun entry => (entry.stamp, entry.message.isNone, entry.usage)) =
      [(some stamp, true, some ⟨some 7, none, none, none⟩)]) : found = [answer stamp] := by
  obtain ⟨⟨given, message, usage⟩, rfl, hentry⟩ := List.map_eq_singleton_iff.1 h
  simp only [Prod.mk.injEq, Option.isNone_iff_eq_none] at hentry
  obtain ⟨rfl, rfl, rfl⟩ := hentry
  rfl

/-- What it comes to, with no model. -/
def answerRecount : Recount := ⟨⟨⟨7, 0, 0, 0⟩, 7⟩, none⟩

theorem recount_by_instant_firstOfMarch :
    recount? (answerLine "2024-02-29T18:50:01Z") firstOfMarch.localTime firstOfMarch.offset =
        some answerRecount ∧
      recount? (answerLine "2024-03-01T00:20:01.0+05:30") firstOfMarch.localTime
        firstOfMarch.offset = some answerRecount ∧
      recount? (answerLine "2024-02-29T18:50:01Z") firstOfMarchMoved.localTime
        firstOfMarchMoved.offset = some answerRecount ∧
      IsTotalOf ⟨7, 0, 0, 0⟩ [⟨some 7, none, none, none⟩] ∧
      ∃ less, recount? (answerLine "2024-02-29T18:50:01Z") firstOfMarchLater.localTime
          firstOfMarchLater.offset = some less ∧ less.counts = .zero ∧
        less.counts.tokens ≤ answerRecount.counts.tokens := by
  have hentries : entries (answerLine "2024-02-29T18:50:01Z") =
      [answer "2024-02-29T18:50:01Z"] := eq_answer (by decide +kernel)
  have hanew : entries (answerLine "2024-03-01T00:20:01.0+05:30") =
      [answer "2024-03-01T00:20:01.0+05:30"] := eq_answer (by decide +kernel)
  have hsaid : Stamp.said? "2024-02-29T18:50:01Z".toList =
      some (⟨⟨2024, 2, 29, by decide⟩, ⟨67801, 0, by decide, by decide⟩⟩, some 0) := by
    decide +kernel
  have htext : Stamp.IsTextOf ⟨⟨2024, 3, 1, by decide⟩, ⟨1201, 0, by decide, by decide⟩⟩ 19800
      "2024-03-01T00:20:01.0+05:30".toList := by
    refine ⟨by decide, by decide, ".0".toList, "+05:30".toList, Or.inr ⟨['0'], ?_, ?_, rfl, rfl⟩,
      ?_, by decide⟩
    · exact List.forall_mem_singleton.2 rfl
    · decide
    · exact @DateTime.IsOffsetText.ahead 5 30 (by decide) (by decide)
  have hrespells : List.Forall₂ Entry.Respells (entries (answerLine "2024-02-29T18:50:01Z"))
      (entries (answerLine "2024-03-01T00:20:01.0+05:30")) := by
    rw [hentries, hanew]
    exact .cons (.stamp hsaid (by decide) htext) .nil
  obtain ⟨total, htotal, hrespelled, hmoved, hsum, hlater⟩ :=
    recount_by_instant firstOfMarch (by decide) (answerLine "2024-02-29T18:50:01Z")
  have hcomes : recount? (answerLine "2024-02-29T18:50:01Z") firstOfMarch.localTime
      firstOfMarch.offset = some answerRecount := by decide +kernel
  obtain rfl : total = answerRecount := Option.some.inj (htotal.symm.trans hcomes)
  have hcounted : ((entries (answerLine "2024-02-29T18:50:01Z")).filter fun entry =>
      entry.CountsFrom firstOfMarch).filterMap Entry.toldUsage? =
        [⟨some 7, none, none, none⟩] := by decide +kernel
  rw [hcounted] at hsum
  obtain ⟨less, hless, hle⟩ := hlater firstOfMarchLater (by decide) (by decide) (by decide)
  have hnothing : recount? (answerLine "2024-02-29T18:50:01Z") firstOfMarchLater.localTime
      firstOfMarchLater.offset = some .start := by decide +kernel
  obtain rfl : less = .start := Option.some.inj (hless.symm.trans hnothing)
  exact ⟨htotal, hrespelled _ hrespells,
    hmoved firstOfMarchMoved (-21600) (by decide) (by decide) (by decide +kernel), hsum,
    _, hless, rfl, hle⟩

end Transcript

end SessionLog
