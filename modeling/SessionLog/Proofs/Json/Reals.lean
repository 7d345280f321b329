/-
  SessionLog/Proofs/Json/Reals.lean
  =================================
  **Doubles as JSON text.**

  Whatever the layout, the text of a double is a numeral: a whole part without a
  superfluous zero, then a point with digits behind it, an exponent or both. It is read
  as some number as long as what is written stays far from the end of the range; which
  one is not said here.
-/
import SessionLog.Json.Printer
import SessionLog.Proofs.Binary64.Bounds
import SessionLog.Proofs.Json.Numbers

namespace SessionLog

open Text

namespace Raw

/-! ### Whole parts -/

theorem isWholePart_zero : IsWholePart ['0'] := isWholePart_digits 0

theorem isWholePart_digits_append {n : Nat} (hn : 0 < n) (zeros : Nat) :
    IsWholePart (Text.digits n ++ List.replicate zeros '0') where
  allDigits := (allDigits_digits n).append (AllDigits.replicate_zero zeros)
  ne_nil h := digits_ne_nil n (List.append_eq_nil_iff.1 h).1
  no_zero := by
    intro c cs h
    cases hdigits : Text.digits n with
    | nil => exact digits_ne_nil n hdigits
    | cons first rest =>
      rw [hdigits, List.cons_append, List.cons.injEq] at h
      rw [h.1] at hdigits
      -- a number that begins with a zero is zero
      have hzero : n = 0 := by
        rw [← ofDigits_digits n, hdigits, digits_eq_zero_cons hdigits]
        rfl
      omega

theorem IsWholePart.take {ds : List Char} (h : IsWholePart ds) {k : Nat} (hk : 0 < k) :
    IsWholePart (ds.take k) where
  allDigits c hc := h.allDigits c (List.mem_of_mem_take hc)
  ne_nil hnil := by
    rcases List.take_eq_nil_iff.1 hnil with rfl | hds
    · exact Nat.lt_irrefl 0 hk
    · exact h.ne_nil hds
  no_zero c cs hzero := by
    obtain ⟨rest, hrest⟩ := List.take_prefix k ds
    rw [hzero] at hrest
    exact h.no_zero c (cs ++ rest) hrest.symm

end Raw

/-! ### Values -/

namespace Numeral

theorem significand_lt {start : Nat} (h : start < 0x10000000000000000) (ds : List Nat) :
    (significand start ds).1 < 0x10000000000000000 := by
  induction ds generalizing start with
  | nil => exact h
  | cons d ds ih =>
    rw [significand]
    split
    · exact ih ‹_›
    · exact h

theorem length_significand_le (start : Nat) (ds : List Nat) :
    (significand start ds).2.length ≤ ds.length := by
  induction ds generalizing start with
  | nil => exact Nat.le_refl 0
  | cons d ds ih =>
    rw [significand]
    split
    · exact Nat.le_succ_of_le (ih _)
    · exact Nat.le_refl _

theorem units_tenTo_le (n : Nat) : (tenTo n).units ≤ Binary64.one * 2 ^ (4 * n) := by
  apply Binary64.units_ofNat_le
  calc
    10 ^ n ≤ (2 ^ 4) ^ n := Nat.pow_le_pow_left (by decide) n
    _ = 2 ^ (4 * n) := (Nat.pow_mul 2 4 n).symm

/-- A significand of 64 bits is scaled within the range up to `10²⁰⁰`. -/
theorem exists_scale? {n : Nat} (hn : n < 0x10000000000000000) {e : Int} (he : e ≤ 200) :
    ∃ x, scale? n e = some x := by
  rw [scale?]
  split
  · exact ⟨_, rfl⟩
  · split
    · exact ⟨_, rfl⟩
    · rename_i hnonneg _
      have hsmall : e.toNat ≤ 200 := by omega
      have hmax : ¬ maxTen < e.toNat := by
        rw [maxTen]
        omega
      have hrange : ((Binary64.ofNat n).mul (tenTo e.toNat)).InRange := by
        have hle : n ≤ 2 ^ 64 := Nat.le_of_lt hn
        have hproduct := Binary64.units_mul_le (Binary64.units_ofNat_le hle)
          (units_tenTo_le e.toNat)
        exact Binary64.inRange_of_units_le hproduct (by omega)
      rw [if_neg hmax]
      exact ⟨_, if_pos hrange⟩

theorem exists_toReal? {numeral : Numeral}
    (h : numeral.whole.length + numeral.writtenExponent ≤ 200) :
    ∃ x, numeral.toReal? = some x := by
  have hwhole := length_significand_le 0 numeral.whole
  have hfraction := length_significand_le (significand 0 numeral.whole).1
    (numeral.fraction.getD [])
  have hfits := significand_lt (significand_lt (Nat.two_pow_pos 64) numeral.whole)
    (numeral.fraction.getD [])
  obtain ⟨x, hx⟩ := exists_scale? hfits (e := (significand 0 numeral.whole).2.length -
    ((numeral.fraction.getD []).length - (significand (significand 0 numeral.whole).1
      (numeral.fraction.getD [])).2.length : Int) + numeral.writtenExponent) (by omega)
  exact ⟨numeral.signed x, by simp only [toReal?]; rw [hx]; rfl⟩

/-- Digits that are left over count as powers of ten, so a numeral that is neither long
    nor of a large exponent stands for a number. -/
theorem exists_toNumber? {numeral : Numeral}
    (h : numeral.whole.length + numeral.writtenExponent ≤ 200) :
    ∃ number, numeral.toNumber? = some number := by
  rw [toNumber?]
  split
  · split
    · exact ⟨_, rfl⟩
    · split
      · exact ⟨_, rfl⟩
      · exact ⟨_, rfl⟩
  · obtain ⟨x, hx⟩ := exists_toReal? h
    exact ⟨.real x, by rw [hx]; rfl⟩

@[simp] theorem ofDigits_map (ds : List Char) : ofDigits (ds.map digitValue) = Text.ofDigits ds :=
  List.foldl_map

theorem writtenExponent_eq {numeral : Numeral} {e : Int}
    (h : numeral.exponent = some (decide (e < 0), (Text.digits e.natAbs).map digitValue)) :
    numeral.writtenExponent = e := by
  rw [writtenExponent, h]
  cases e with
  | ofNat n =>
    change ((ofDigits ((Text.digits n).map digitValue) : Nat) : Int) = n
    rw [ofDigits_map, ofDigits_digits]
  | negSucc n =>
    simp only [Int.negSucc_lt_zero, decide_true, ofDigits_map, ofDigits_digits]
    rfl

end Numeral

/-! ### Layouts -/

namespace Raw

/-- The text reads as the magnitude of some number, whatever its sign. -/
def ReadsMagnitude (text : List Char) : Prop :=
  ∀ negative, ∃ numeral : Numeral, numeral.negative = negative ∧ ReadsNumeral text numeral ∧
    numeral.whole.length + numeral.writtenExponent ≤ 200

theorem readsMagnitude_point {ds fs : List Char} (hds : IsWholePart ds) (hlength : ds.length ≤ 200)
    (hfs : AllDigits fs) (hne : fs ≠ []) : ReadsMagnitude (ds ++ '.' :: fs) := by
  intro negative
  refine ⟨_, rfl, (readsTail_fraction hfs hne).readsNumeral hds negative, ?_⟩
  simp only [List.length_map, Numeral.writtenExponent]
  omega

theorem readsMagnitude_placePoint {n : Nat} {whole : Int} (hwhole : whole ≤ 200)
    (hn : 0 < n ∨ whole ≤ (Text.digits n).length) :
    ReadsMagnitude (placePoint (Text.digits n) whole) := by
  have hdigits := allDigits_digits n
  have hne := digits_ne_nil n
  rw [placePoint]
  split
  · refine readsMagnitude_point isWholePart_zero (by decide) ?_ ?_
    · exact (AllDigits.replicate_zero _).append hdigits
    · exact fun h => hne (List.append_eq_nil_iff.1 h).2
  · split
    · rename_i hpos hshort
      have hpart : IsWholePart (Text.digits n ++
          List.replicate (whole.toNat - (Text.digits n).length) '0') := by
        rcases hn with hn | hn
        · exact isWholePart_digits_append hn _
        · have hnone : whole.toNat - (Text.digits n).length = 0 := by omega
          rw [hnone, List.replicate_zero, List.append_nil]
          exact isWholePart_digits n
      refine readsMagnitude_point hpart ?_ (AllDigits.replicate_zero 1) (by decide)
      rw [List.length_append, List.length_replicate]
      omega
    · rename_i hpos hlong
      refine readsMagnitude_point ((isWholePart_digits n).take (by omega)) ?_ ?_ ?_
      · rw [List.length_take]
        omega
      · exact fun c hc => hdigits c (List.mem_of_mem_drop hc)
      · intro hnil
        rw [List.drop_eq_nil_iff] at hnil
        exact hlong hnil

theorem readsMagnitude_scientific {n : Nat} {exponent : Int} (h : exponent ≤ 199) :
    ReadsMagnitude (scientific realForm (Text.digits n) exponent) := by
  intro negative
  have hdigits := allDigits_digits n
  have hsign : 'e' :: ((if exponent < 0 then ['-'] else realForm.plus) ++
      Text.digits exponent.natAbs) =
        exponentText (decide (exponent < 0)) (Text.digits exponent.natAbs) := by
    simp only [exponentText, decide_eq_true_eq]
    rfl
  have hpower := allDigits_digits exponent.natAbs
  have hpowerne := digits_ne_nil exponent.natAbs
  cases hcons : Text.digits n with
  | nil => exact absurd hcons (digits_ne_nil n)
  | cons first rest =>
    have hfirst : IsWholePart [first] := by
      have htake := (isWholePart_digits n).take Nat.one_pos
      rwa [hcons, List.take_succ_cons, List.take_zero] at htake
    cases rest with
    | nil =>
      simp only [scientific, hsign]
      refine ⟨_, rfl, (readsTail_exponent hpower hpowerne _).readsNumeral hfirst negative, ?_⟩
      rw [Numeral.writtenExponent_eq rfl, List.map_singleton, List.length_singleton]
      omega
    | cons second rest =>
      have hrest : AllDigits (second :: rest) := fun c hc =>
        hdigits c (hcons ▸ List.mem_cons_of_mem _ hc)
      simp only [scientific, hsign]
      refine ⟨_, rfl, (readsTail_fraction_exponent hrest (List.cons_ne_nil _ _) hpower hpowerne
        _).readsNumeral hfirst negative, ?_⟩
      rw [Numeral.writtenExponent_eq rfl, List.map_singleton, List.length_singleton]
      omega

theorem readsMagnitude_renderDecimal {d : Binary64.Decimal}
    (hsize : d.exponent + (Text.digits d.digits).length ≤ 200)
    (hnonzero : 0 < d.digits ∨ d.exponent ≤ 0) :
    ReadsMagnitude (renderDecimal realForm d) := by
  rw [renderDecimal]
  split
  · refine readsMagnitude_placePoint (by omega) ?_
    rcases hnonzero with hpos | hle
    · exact Or.inl hpos
    · exact Or.inr (by omega)
  · exact readsMagnitude_scientific (by omega)

theorem readsMagnitude_shortest {x : Binary64} (hmoderate : x.IsModerate)
    (hnonzero : x.units ≠ 0) :
    ReadsMagnitude (renderDecimal realForm (Binary64.shortest x.units)) := by
  refine readsMagnitude_renderDecimal ?_ (Binary64.shortest_nonzero hmoderate hnonzero)
  have hexponent := Binary64.exponent_shortest_le hmoderate
  have hlength := length_digits_le (by omega) (Binary64.digits_shortest_lt hmoderate)
  omega

/-- **A double that is not too large reads as some number.** -/
theorem exists_reads_real {x : Binary64} (hmoderate : x.IsModerate) (depth : Nat) :
    ∃ number, Reads depth (renderReal x) (.number number) := by
  have hmagnitude : ∃ text, renderReal x = signText x.negative ++ text ∧ ReadsMagnitude text := by
    rw [renderReal]
    split
    · exact ⟨_, rfl, readsMagnitude_point isWholePart_zero (by decide)
        (AllDigits.replicate_zero 1) (by decide)⟩
    · rename_i hzero
      refine ⟨_, rfl, readsMagnitude_shortest hmoderate fun h => hzero ?_⟩
      rw [Binary64.isZero, h]
      rfl
  obtain ⟨text, htext, hread⟩ := hmagnitude
  obtain ⟨numeral, hnegative, hnumeral, hsize⟩ := hread x.negative
  obtain ⟨number, hnumber⟩ := Numeral.exists_toNumber? hsize
  refine ⟨number, ?_⟩
  rw [htext, ← hnegative]
  exact hnumeral.reads hnumber depth

end Raw

end SessionLog
