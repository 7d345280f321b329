/-
  SessionLog/Proofs/Json/Numbers.lean
  ===================================
  **Numerals: grammar and value.**

  Digits without a superfluous zero in front are a numeral, with a fraction and an
  exponent or without. An integer of 64 bits is read as itself.
-/
import SessionLog.Proofs.Json.Reading

namespace SessionLog

open Text

namespace Raw

/-! ### Grammar -/

theorem digits_append {ds : List Char} (hds : AllDigits ds) {rest : List Char}
    (hrest : NoDigit rest) : Raw.digits (ds ++ rest) = (ds.map digitValue, rest) := by
  have hdrop : (ds ++ rest).dropWhile isDigit = rest := by
    rw [List.dropWhile_append_of_pos hds]
    cases rest with
    | nil => rfl
    | cons c rest => exact List.dropWhile_cons_of_neg (Bool.eq_false_iff.1 (hrest c rfl))
  rw [Raw.digits, leadingDigits_append hds hrest, hdrop]

/-- Digits that may stand in front of a point: a zero stands alone. -/
structure IsWholePart (ds : List Char) : Prop where
  allDigits : AllDigits ds
  ne_nil : ds ≠ []
  no_zero : ∀ c cs, ds = '0' :: c :: cs → False

theorem unsignedNumeral?_append {ds : List Char} (hds : IsWholePart ds) {rest : List Char}
    (hrest : NoDigit rest) (negative : Bool) :
    unsignedNumeral? negative (ds ++ rest) = (do
      let (fraction, text) ← fraction? rest
      let (exponent, text) ← exponent? text
      return (⟨negative, ds.map digitValue, fraction, exponent⟩, text)) := by
  rw [unsignedNumeral?, digits_append hds.allDigits hrest]
  split
  · rename_i heq
    simp only [Prod.mk.injEq, List.map_eq_nil_iff] at heq
    exact absurd heq.1 hds.ne_nil
  · rename_i d ds' _ heq
    simp only [Prod.mk.injEq] at heq
    obtain ⟨first, tail, rfl, hfirst, htail⟩ := List.map_eq_cons_iff.1 heq.1
    obtain ⟨second, tail, rfl, -, -⟩ := List.map_eq_cons_iff.1 htail
    have hzero : first = '0' :=
      digitValue_inj (hds.allDigits first List.mem_cons_self) rfl hfirst
    exact (hds.no_zero second tail (by rw [hzero])).elim
  · rename_i heq
    simp only [Prod.mk.injEq] at heq
    rw [← heq.1, ← heq.2]

theorem fraction?_of_ends {rest : List Char} (h : Ends rest) :
    fraction? rest = some (none, rest) := by
  cases rest with
  | nil => rfl
  | cons c rest => rcases h c rfl with rfl | rfl | rfl | rfl <;> rfl

theorem exponent?_of_ends {rest : List Char} (h : Ends rest) :
    exponent? rest = some (none, rest) := by
  cases rest with
  | nil => rfl
  | cons c rest => rcases h c rfl with rfl | rfl | rfl | rfl <;> rfl

theorem fraction?_append {ds : List Char} (hds : AllDigits ds) (hne : ds ≠ [])
    {rest : List Char} (hrest : NoDigit rest) :
    fraction? ('.' :: (ds ++ rest)) = some (some (ds.map digitValue), rest) := by
  rw [fraction?, digits_append hds hrest]
  cases ds with
  | nil => exact absurd rfl hne
  | cons c cs => rfl

theorem exponent?_append {ds : List Char} (hds : AllDigits ds) (hne : ds ≠ [])
    {rest : List Char} (hrest : NoDigit rest) (negative : Bool) :
    exponent? ('e' :: ((if negative then ['-'] else ['+']) ++ ds ++ rest)) =
      some (some (negative, ds.map digitValue), rest) := by
  have hsign : exponentSign ((if negative then ['-'] else ['+']) ++ ds ++ rest) =
      (negative, ds ++ rest) := by cases negative <;> rfl
  rw [exponent?, if_pos (Or.inl rfl), hsign]
  simp only [digits_append hds hrest]
  cases ds with
  | nil => exact absurd rfl hne
  | cons c cs => rfl

theorem value?_numeral {c : Char} (hc : c = '-' ∨ isDigit c = true) {text rest : List Char}
    {numeral : Numeral} (h : numeral? (c :: text) = some (numeral, rest)) (fuel : Nat) :
    value? (fuel + 1) (c :: text) = some (.number numeral, rest) := by
  have hother {d : Char} (hd : d ≠ '-' ∧ isDigit d = false) : c ≠ d := by
    rintro rfl
    rcases hc with hc | hc
    · exact hd.1 hc
    · rw [hd.2] at hc
      cases hc
  have hspace : isSpace c = false := by
    simp only [isSpace, Bool.or_eq_false_iff, beq_eq_false_iff_ne, ne_eq]
    exact ⟨⟨⟨hother (by decide), hother (by decide)⟩, hother (by decide)⟩, hother (by decide)⟩
  rw [value?, skipSpace_cons hspace]
  split
  case h_7 =>
    rw [h]
    rfl
  -- the other values begin with a letter, a quote or a bracket
  all_goals exact absurd (List.cons.inj ‹_›).1 (hother (by decide))

/-- The text of a numeral with or without a sign: it begins with a digit behind the sign,
    and up to an end all of it is read. -/
def ReadsNumeral (text : List Char) (numeral : Numeral) : Prop :=
  (∃ c cs, text = c :: cs ∧ isDigit c = true) ∧
    ∀ rest, Ends rest → unsignedNumeral? numeral.negative (text ++ rest) = some (numeral, rest)

def signText (negative : Bool) : List Char := if negative then ['-'] else []

/-- What may follow the whole part: it begins with no digit, and up to an end all of it
    is a fraction and an exponent. -/
def ReadsTail (tail : List Char) (fraction : Option (List Nat))
    (exponent : Option (Bool × List Nat)) : Prop :=
  ∀ rest, Ends rest → NoDigit (tail ++ rest) ∧
    ∃ after, fraction? (tail ++ rest) = some (fraction, after) ∧
      exponent? after = some (exponent, rest)

theorem readsTail_nil : ReadsTail [] none none := fun rest hends =>
  ⟨hends.noDigit, rest, fraction?_of_ends hends, exponent?_of_ends hends⟩

theorem readsTail_fraction {ds : List Char} (hds : AllDigits ds) (hne : ds ≠ []) :
    ReadsTail ('.' :: ds) (some (ds.map digitValue)) none := by
  intro rest hends
  refine ⟨NoDigit.cons (by decide) _, rest, ?_, exponent?_of_ends hends⟩
  exact fraction?_append hds hne hends.noDigit

def exponentText (negative : Bool) (ds : List Char) : List Char :=
  'e' :: ((if negative then ['-'] else ['+']) ++ ds)

theorem readsTail_exponent {ds : List Char} (hds : AllDigits ds) (hne : ds ≠ [])
    (negative : Bool) :
    ReadsTail (exponentText negative ds) none (some (negative, ds.map digitValue)) := by
  intro rest hends
  refine ⟨NoDigit.cons (by decide) _, _, rfl, ?_⟩
  exact exponent?_append hds hne hends.noDigit negative

theorem readsTail_fraction_exponent {fs ds : List Char} (hfs : AllDigits fs) (hfsne : fs ≠ [])
    (hds : AllDigits ds) (hne : ds ≠ []) (negative : Bool) :
    ReadsTail ('.' :: fs ++ exponentText negative ds) (some (fs.map digitValue))
      (some (negative, ds.map digitValue)) := by
  intro rest hends
  refine ⟨NoDigit.cons (by decide) _, exponentText negative ds ++ rest, ?_, ?_⟩
  · rw [List.append_assoc]
    exact fraction?_append hfs hfsne (NoDigit.cons (by decide) _)
  · exact exponent?_append hds hne hends.noDigit negative

theorem ReadsTail.readsNumeral {ds tail : List Char} {fraction : Option (List Nat)}
    {exponent : Option (Bool × List Nat)} (h : ReadsTail tail fraction exponent)
    (hds : IsWholePart ds) (negative : Bool) :
    ReadsNumeral (ds ++ tail) ⟨negative, ds.map digitValue, fraction, exponent⟩ := by
  refine ⟨?_, fun rest hends => ?_⟩
  · cases hcons : ds with
    | nil => exact absurd hcons hds.ne_nil
    | cons c cs => exact ⟨c, cs ++ tail, rfl, hds.allDigits c (hcons ▸ List.mem_cons_self)⟩
  · obtain ⟨hnoDigit, after, hfraction, hexponent⟩ := h rest hends
    rw [List.append_assoc, unsignedNumeral?_append hds hnoDigit, hfraction]
    simp only [Option.bind_eq_bind, Option.bind_some, hexponent]
    rfl

theorem ReadsNumeral.reads {text : List Char} {numeral : Numeral} (h : ReadsNumeral text numeral)
    {number : Number} (hnumber : numeral.toNumber? = some number) (depth : Nat) :
    Reads depth (signText numeral.negative ++ text) (.number number) := by
  obtain ⟨⟨c, cs, htext, hc⟩, hread⟩ := h
  refine ⟨.number numeral, by rw [toJson?, hnumber]; rfl, fun fuel rest hfuel hends => ?_⟩
  have hrest := hread rest hends
  cases fuel with
  | zero => simp [htext] at hfuel
  | succ fuel =>
    cases hnegative : numeral.negative with
    | true =>
      rw [hnegative] at hrest
      exact value?_numeral (Or.inl rfl) hrest fuel
    | false =>
      rw [hnegative, htext] at hrest
      rw [htext]
      have hunsigned :
          numeral? (c :: (cs ++ rest)) = unsignedNumeral? false (c :: (cs ++ rest)) := by
        rw [numeral?]
        intro after heq
        cases heq
        cases hc
      exact value?_numeral (Or.inr hc) (hunsigned.trans hrest) fuel

end Raw

/-! ### Digits of a number as a whole part -/

namespace Text

theorem digits_eq_zero_cons {n : Nat} {cs : List Char} (h : digits n = '0' :: cs) : cs = [] := by
  apply Decidable.byContradiction
  intro hne
  have hpos : 0 < cs.length := List.length_pos_iff.2 hne
  have hcs : AllDigits cs := fun c hc => allDigits_digits n c (h ▸ List.mem_cons_of_mem _ hc)
  have hvalue : n = ofDigits cs := by
    rw [← ofDigits_digits n, h, ofDigits_cons]
    simp [digitValue]
  have hlength := length_digits_le hpos (hvalue ▸ ofDigits_lt hcs)
  rw [h, List.length_cons] at hlength
  exact Nat.lt_irrefl _ hlength

theorem isWholePart_digits (n : Nat) : Raw.IsWholePart (digits n) where
  allDigits := allDigits_digits n
  ne_nil := digits_ne_nil n
  no_zero := by
    intro c cs h
    cases digits_eq_zero_cons h

end Text

/-! ### Integers -/

namespace Numeral

theorem significand_digits {ds : List Char} (hds : AllDigits ds) (start : Nat)
    (h : start * 10 ^ ds.length + Text.ofDigits ds < 0x10000000000000000) :
    significand start (ds.map digitValue) = (start * 10 ^ ds.length + Text.ofDigits ds, []) := by
  induction ds generalizing start with
  | nil => simp [significand, Text.ofDigits]
  | cons c ds ih =>
    have hrest : AllDigits ds := fun d hd => hds d (List.mem_cons_of_mem _ hd)
    have hsum : start * 10 ^ (c :: ds).length + Text.ofDigits (c :: ds) =
        (start * 10 + digitValue c) * 10 ^ ds.length + Text.ofDigits ds := by
      rw [ofDigits_cons, List.length_cons, Nat.pow_succ]
      grind
    rw [hsum] at h ⊢
    have hfits : start * 10 + digitValue c < 0x10000000000000000 := by
      have hpos : 0 < 10 ^ ds.length := Nat.pow_pos (by decide)
      have := Nat.le_mul_of_pos_right (start * 10 + digitValue c) hpos
      omega
    rw [List.map_cons, significand, if_pos hfits, ih hrest _ h]

theorem significand_ofDigits {n : Nat} (h : n < 0x10000000000000000) :
    significand 0 ((digits n).map digitValue) = (n, []) := by
  have hread := significand_digits (allDigits_digits n) 0 (by
    rw [Nat.zero_mul, Nat.zero_add, ofDigits_digits]
    exact h)
  rwa [Nat.zero_mul, Nat.zero_add, ofDigits_digits] at hread

end Numeral

namespace Raw

theorem readsNumeral_digits (negative : Bool) (n : Nat) :
    ReadsNumeral (Text.digits n) ⟨negative, (Text.digits n).map digitValue, none, none⟩ := by
  have h := readsTail_nil.readsNumeral (isWholePart_digits n) negative
  rwa [List.append_nil] at h

/-- An integer that fits 64 bits, signed or unsigned, reads as itself. -/
theorem reads_integer {n : Int} (hlow : Number.minSigned ≤ n) (hhigh : n ≤ Number.maxUnsigned)
    (depth : Nat) :
    Reads depth (renderInteger n) (.number (.integer n)) := by
  cases n with
  | ofNat n =>
    refine (readsNumeral_digits false n).reads ?_ depth
    have hfits : n < 0x10000000000000000 := Int.ofNat_lt.1 (Int.lt_of_le_sub_one hhigh)
    simp only [Numeral.toNumber?, Numeral.significand_ofDigits hfits]
    rfl
  | negSucc n =>
    refine (readsNumeral_digits true (n + 1)).reads ?_ depth
    have hfits : n + 1 ≤ 0x8000000000000000 := by
      rw [Number.minSigned] at hlow
      omega
    have hfits' : n + 1 < 0x10000000000000000 := Nat.lt_of_le_of_lt hfits (by decide)
    simp only [Numeral.toNumber?, Numeral.significand_ofDigits hfits', Bool.not_true,
      Bool.false_eq_true, if_false, Nat.succ_pos, hfits, and_self, if_true]
    rfl

end Raw

end SessionLog
