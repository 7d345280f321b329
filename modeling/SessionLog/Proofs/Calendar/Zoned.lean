/-
  SessionLog/Proofs/Calendar/Zoned.lean
  =====================================
  **Times with an offset, written and read back.**

  A time with a year of four digits is read from its text, a fraction in any number of
  digits and an offset. Whatever is read with an offset has such a year, and its offset is
  whole minutes and less than a day; so the calendar has its time in UTC.
-/
import SessionLog.Proofs.Calendar.Shift
import SessionLog.Proofs.Calendar.Text

namespace SessionLog

open Text

namespace DateTime

/-! ### Fractions -/

/-- A fraction of a second in any number of digits, or nothing for a whole second. -/
def IsFractionText (nano : Nat) (text : List Char) : Prop :=
  (text = [] ∧ nano = 0) ∨
    ∃ ds, AllDigits ds ∧ ds ≠ [] ∧ text = '.' :: ds ∧
      ofDigits ds * nanosPerSecond = nano * 10 ^ ds.length

theorem dropWhile_isDigit_append {ds rest : List Char} (hds : AllDigits ds)
    (hrest : NoDigit rest) : (ds ++ rest).dropWhile isDigit = rest := by
  rw [List.dropWhile_append_of_pos hds]
  cases rest with
  | nil => rfl
  | cons c rest => exact List.dropWhile_cons_of_neg (Bool.eq_false_iff.1 (hrest c rfl))

/-- Nine digits are read and the others passed over. In the text of a whole number of
    nanoseconds the others are zeros. -/
theorem nanos?_digits {nano : Nat} {ds rest : List Char} (hds : AllDigits ds) (hne : ds ≠ [])
    (hvalue : ofDigits ds * nanosPerSecond = nano * 10 ^ ds.length) (hrest : NoDigit rest) :
    nanos? ('.' :: (ds ++ rest)) = some (nano, rest) := by
  have hpos := List.length_pos_iff.2 hne
  obtain ⟨front, back, rfl, hlength, hbackNil⟩ : ∃ front back, ds = front ++ back ∧
      front.length ≤ 9 ∧ (front.length < 9 → back = []) := by
    refine ⟨ds.take 9, ds.drop 9, (List.take_append_drop 9 ds).symm, List.length_take_le _ _, ?_⟩
    intro hshort
    rw [List.length_take] at hshort
    exact List.drop_eq_nil_of_le (by omega)
  have hfront : AllDigits front := fun c hc => hds c (List.mem_append_left _ hc)
  have hback : AllDigits back := fun c hc => hds c (List.mem_append_right _ hc)
  have hread : number? 1 9 (front ++ (back ++ rest)) = some (ofDigits front, back ++ rest) := by
    by_cases hshort : front.length < 9
    · rw [hbackNil hshort, List.append_nil] at hpos
      rw [hbackNil hshort, List.nil_append]
      exact number?_append hfront hpos (Or.inr ⟨hlength, hrest⟩)
    · exact number?_append hfront (by omega) (Or.inl (by omega))
  have hlost : ofDigits back * 10 ^ (9 - front.length) < 10 ^ back.length := by
    by_cases hshort : front.length < 9
    · rw [hbackNil hshort, ofDigits, List.foldl_nil, Nat.zero_mul]
      exact Nat.one_pos
    · rw [Nat.sub_eq_zero_of_le (Nat.le_of_not_lt hshort), Nat.pow_zero, Nat.mul_one]
      exact ofDigits_lt hback
  have hexact : ofDigits front * 10 ^ (9 - front.length) = nano := by
    have hscaled : ofDigits front * 10 ^ (9 - front.length) * 10 ^ back.length +
        ofDigits back * 10 ^ (9 - front.length) = nano * 10 ^ back.length := by
      have hunit : nanosPerSecond = 10 ^ (9 - front.length) * 10 ^ front.length := by
        rw [← Nat.pow_add, Nat.sub_add_cancel hlength]
        rfl
      apply Nat.eq_of_mul_eq_mul_right (Nat.pow_pos (n := front.length) (by decide : 0 < 10))
      calc
        _ = ofDigits (front ++ back) * nanosPerSecond := by
          rw [ofDigits_append, hunit]
          grind
        _ = _ := by
          rw [hvalue, List.length_append, Nat.pow_add]
          grind
    have hunits := congrArg (· / 10 ^ back.length) hscaled
    simp only [Nat.mul_div_cancel _ (Nat.pow_pos (n := back.length) (by decide : 0 < 10)),
      Nat.add_comm (_ * _ * _), Nat.add_mul_div_right _ _
        (Nat.pow_pos (n := back.length) (by decide : 0 < 10)),
      Nat.div_eq_of_lt hlost, Nat.zero_add] at hunits
    exact hunits
  rw [List.append_assoc, nanos?, hread]
  simp only [Option.bind_eq_bind, Option.bind_some, List.length_append, Nat.add_sub_cancel,
    dropWhile_isDigit_append hback hrest]
  exact congrArg (fun n => some (n, rest)) hexact

theorem nanos?_of_isFractionText {nano : Nat} {text rest : List Char}
    (h : IsFractionText nano text) (hrest : NoDigit rest) (hpoint : rest.head? ≠ some '.') :
    nanos? (text ++ rest) = some (nano, rest) := by
  rcases h with ⟨rfl, rfl⟩ | ⟨ds, hds, hne, rfl, hvalue⟩
  · rw [List.nil_append, nanos?.eq_def]
    split
    · exact absurd rfl hpoint
    · rfl
  · exact nanos?_digits hds hne hvalue hrest

/-! ### Offsets -/

/-- Hours and minutes of an offset. -/
def clockText (hours minutes : Nat) : List Char := padded 2 hours ++ ':' :: padded 2 minutes

/-- The text of an offset from UTC in seconds. A clock that is not ahead has three of them. -/
inductive IsOffsetText : Int → List Char → Prop
  | zulu : IsOffsetText 0 ['Z']
  | ahead {hours minutes : Nat} (hhours : hours ≤ 23) (hminutes : minutes ≤ 59) :
      IsOffsetText (hours * 3600 + minutes * 60) ('+' :: clockText hours minutes)
  | behind {hours minutes : Nat} (hhours : hours ≤ 23) (hminutes : minutes ≤ 59) :
      IsOffsetText (-(hours * 3600 + minutes * 60)) ('-' :: clockText hours minutes)

theorem offset?_clockText {hours minutes : Nat} (hhours : hours ≤ 23) (hminutes : minutes ≤ 59) :
    offset? ('+' :: clockText hours minutes) = some ((hours : Int) * 3600 + minutes * 60, []) ∧
      offset? ('-' :: clockText hours minutes) =
        some (-((hours : Int) * 3600 + minutes * 60), []) := by
  have hread (n : Nat) (hn : n < 100) (rest : List Char) :
      number? 2 2 (padded 2 n ++ rest) = some (n, rest) := number?_padded (by decide) hn rest
  have hlast := hread minutes (by omega) []
  rw [List.append_nil] at hlast
  have hbounds : hours ≤ 23 ∧ minutes ≤ 59 := ⟨hhours, hminutes⟩
  constructor
  · refine Option.bind_eq_some_iff.2 ⟨_, hread hours (by omega) _, ?_⟩
    refine Option.bind_eq_some_iff.2 ⟨_, expect?_cons _ _, ?_⟩
    refine Option.bind_eq_some_iff.2 ⟨_, hlast, ?_⟩
    simp only [hbounds, and_self, if_true, Int.one_mul]
    rfl
  · refine Option.bind_eq_some_iff.2 ⟨_, hread hours (by omega) _, ?_⟩
    refine Option.bind_eq_some_iff.2 ⟨_, expect?_cons _ _, ?_⟩
    refine Option.bind_eq_some_iff.2 ⟨_, hlast, ?_⟩
    simp only [hbounds, and_self, if_true, Int.neg_mul, Int.one_mul]
    rfl

/-- An offset that is read is whole minutes, and less than a day. -/
theorem offset?_bounds {text rest : List Char} {ahead : Int}
    (h : offset? text = some (ahead, rest)) : -86400 < ahead ∧ ahead < 86400 ∧ ahead % 60 = 0 := by
  rw [offset?.eq_def] at h
  split at h
  · cases h
    decide
  · cases h
    decide
  · simp only [Option.bind_eq_bind, Option.bind_eq_some_iff] at h
    obtain ⟨⟨sign, text⟩, hsign, ⟨hours, text⟩, -, text, -, ⟨minutes, text⟩, -, h⟩ := h
    have hunit : sign = 1 ∨ sign = -1 := by
      rw [offsetSign?.eq_def] at hsign
      split at hsign
      all_goals cases hsign
      all_goals decide
    split at h
    · cases h
      rcases hunit with rfl | rfl <;> omega
    · cases h

/-! ### Whole texts -/

/-- A time with a year of four digits is read from its text to the second, whatever its
    fraction and offset are read from behind it. -/
theorem parseZoned?_toSecondsText {t : DateTime} (hyear : 0 ≤ t.date.year)
    (hyear' : t.date.year ≤ 9999) (hleap : t.time.LeapEndsMinute) {rest zone : List Char}
    {ahead : Int} (hnanos : nanos? rest = some (t.time.shownNano, zone))
    (hoffset : offset? zone = some (ahead, [])) :
    parseZoned? (t.toSecondsText ++ rest) = some (t, ahead) := by
  have htext : yearText t.date.year = padded 4 t.date.year.toNat := if_pos ⟨hyear, hyear'⟩
  have hfour (text : List Char) :
      number? 4 4 (padded 4 t.date.year.toNat ++ text) = some (t.date.year.toNat, text) :=
    number?_padded (by decide) (by omega) text
  have htwo {n : Nat} (hn : n < 100) (text : List Char) :
      number? 2 2 (padded 2 n ++ text) = some (n, text) :=
    number?_padded (by decide) hn text
  have hdivider (text : List Char) : divider? ('T' :: text) = some text := rfl
  have hhour : t.time.hour < 100 := Nat.lt_trans t.time.hour_lt (by decide)
  have hminute : t.time.minute < 100 := Nat.lt_trans t.time.minute_lt (by decide)
  have hsecond : t.time.shownSecond < 100 :=
    Nat.lt_of_le_of_lt t.time.shownSecond_le (by decide)
  rw [toSecondsText, Date.text, TimeOfDay.text, htext]
  simp only [List.append_assoc, List.cons_append]
  refine Option.bind_eq_some_iff.2 ⟨_, hfour _, ?_⟩
  refine Option.bind_eq_some_iff.2 ⟨_, expect?_cons _ _, ?_⟩
  refine Option.bind_eq_some_iff.2 ⟨_, htwo (month_lt t.date) _, ?_⟩
  refine Option.bind_eq_some_iff.2 ⟨_, expect?_cons _ _, ?_⟩
  refine Option.bind_eq_some_iff.2 ⟨_, htwo (day_lt t.date) _, ?_⟩
  refine Option.bind_eq_some_iff.2 ⟨_, hdivider _, ?_⟩
  refine Option.bind_eq_some_iff.2 ⟨_, htwo hhour _, ?_⟩
  refine Option.bind_eq_some_iff.2 ⟨_, expect?_cons _ _, ?_⟩
  refine Option.bind_eq_some_iff.2 ⟨_, htwo hminute _, ?_⟩
  refine Option.bind_eq_some_iff.2 ⟨_, expect?_cons _ _, ?_⟩
  refine Option.bind_eq_some_iff.2 ⟨_, htwo hsecond _, ?_⟩
  refine Option.bind_eq_some_iff.2 ⟨_, hnanos, ?_⟩
  refine Option.bind_eq_some_iff.2 ⟨_, hoffset, ?_⟩
  simp only [List.isEmpty_nil, if_true, Int.toNat_of_nonneg hyear]
  rw [of?_shown hleap]
  rfl

theorem parseZoned?_bounds {text : List Char} {shown : DateTime} {ahead : Int}
    (h : parseZoned? text = some (shown, ahead)) :
    (0 ≤ shown.date.year ∧ shown.date.year ≤ 9999) ∧ shown.time.LeapEndsMinute ∧
      -86400 < ahead ∧ ahead < 86400 ∧ ahead % 60 = 0 := by
  obtain ⟨⟨year, _⟩, hyear, h⟩ := Option.bind_eq_some_iff.1 h
  obtain ⟨_, -, h⟩ := Option.bind_eq_some_iff.1 h
  obtain ⟨⟨month, _⟩, -, h⟩ := Option.bind_eq_some_iff.1 h
  obtain ⟨_, -, h⟩ := Option.bind_eq_some_iff.1 h
  obtain ⟨⟨day, _⟩, -, h⟩ := Option.bind_eq_some_iff.1 h
  obtain ⟨_, -, h⟩ := Option.bind_eq_some_iff.1 h
  obtain ⟨⟨hour, _⟩, -, h⟩ := Option.bind_eq_some_iff.1 h
  obtain ⟨_, -, h⟩ := Option.bind_eq_some_iff.1 h
  obtain ⟨⟨minute, _⟩, -, h⟩ := Option.bind_eq_some_iff.1 h
  obtain ⟨_, -, h⟩ := Option.bind_eq_some_iff.1 h
  obtain ⟨⟨second, _⟩, -, h⟩ := Option.bind_eq_some_iff.1 h
  obtain ⟨⟨nano, _⟩, -, h⟩ := Option.bind_eq_some_iff.1 h
  obtain ⟨⟨offset, _⟩, hoffset, h⟩ := Option.bind_eq_some_iff.1 h
  have hfour := lt_of_number? hyear
  simp only at h
  split at h
  · obtain ⟨read, hread, h⟩ := Option.bind_eq_some_iff.1 h
    obtain ⟨date, hdate, hread⟩ := Option.bind_eq_some_iff.1 hread
    obtain ⟨time, htime, hread⟩ := Option.bind_eq_some_iff.1 hread
    cases hread
    cases h
    have hfields := (Date.fields_of_of? hdate).1
    refine ⟨?_, TimeOfDay.leapEndsMinute_of_of? htime, offset?_bounds hoffset⟩
    simp only [hfields]
    omega
  · cases h

/-- What is read with an offset has a time in UTC. -/
theorem exists_utc_of_parseZoned? {text : List Char} {shown : DateTime} {ahead : Int}
    (h : parseZoned? text = some (shown, ahead)) :
    ∃ utc, shown.relabel? (-ahead) = some utc ∧ utc.instant 0 = shown.instant ahead := by
  obtain ⟨⟨hyear, hyear'⟩, -, hlow, hhigh, -⟩ := parseZoned?_bounds h
  obtain ⟨utc, hutc⟩ := exists_relabel? hyear hyear' (n := -ahead) (by omega) (by omega)
  refine ⟨utc, hutc, ?_⟩
  have hsame := instant_of_relabel? hutc ahead
  rwa [Int.add_right_neg] at hsame

end DateTime

end SessionLog
