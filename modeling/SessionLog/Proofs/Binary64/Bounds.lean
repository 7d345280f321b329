/-
  SessionLog/Proofs/Binary64/Bounds.lean
  ======================================
  **How large a rounded result and its decimal can be.**

  Rounding does not pass a power of two: an exact result that stays below one stays
  below it as a double. From that, every operation keeps a bound given as a power of two.
  The decimal found for a double is one of its two neighbours on some grid, which bounds
  the number of its digits and its exponent.
-/
import Mathlib.Algebra.Group.Nat.Defs
import SessionLog.Binary64.Shortest

namespace SessionLog.Binary64

/-! ### Rounding -/

theorem divEven_le {num den bound : Nat} (h : num ≤ den * bound) : divEven num den ≤ bound := by
  have hdiv := Nat.div_add_mod num den
  have hquot : num / den ≤ bound := Nat.div_le_of_le_mul h
  rcases Nat.eq_or_lt_of_le hquot with heq | hlt
  · -- the bound is reached: nothing is left to round up
    have hrest : num % den = 0 := by
      rw [heq] at hdiv
      omega
    rw [divEven, if_pos]
    · exact hquot
    · rw [hrest, heq]
      rcases Nat.eq_zero_or_pos den with rfl | hden
      · rw [Nat.div_zero] at heq
        exact Or.inr ⟨rfl, by rw [← heq]⟩
      · exact Or.inl hden
  · simp only [divEven]
    split
    · exact hquot
    · exact hlt

theorem log2_le {n k : Nat} (h : n ≤ 2 ^ k) : n.log2 ≤ k := by
  rcases Nat.eq_zero_or_pos n with rfl | hpos
  · exact Nat.zero_le k
  · apply Nat.le_of_lt_succ
    apply (Nat.log2_lt (Nat.pos_iff_ne_zero.1 hpos)).2
    exact Nat.lt_of_le_of_lt h (Nat.pow_lt_pow_right (by decide) (Nat.lt_succ_self k))

theorem gap_dvd_two_pow {units k : Nat} (h : units ≤ 2 ^ k) : gap units ∣ 2 ^ k :=
  Nat.pow_dvd_pow 2 (Nat.le_trans (Nat.sub_le _ _) (log2_le h))

/-- **Rounding does not pass a power of two.** -/
theorem nearest_le {num den k : Nat} (h : num ≤ den * 2 ^ k) : nearest num den ≤ 2 ^ k := by
  obtain ⟨steps, hsteps⟩ := gap_dvd_two_pow (Nat.div_le_of_le_mul h)
  calc
    nearest num den = gap (num / den) * divEven num (den * gap (num / den)) := rfl
    _ ≤ gap (num / den) * steps := by
      apply Nat.mul_le_mul_left
      apply divEven_le
      rwa [Nat.mul_assoc, ← hsteps]
    _ = 2 ^ k := hsteps.symm

/-! ### Operations

`one * 2 ^ k` units are `2 ^ k`. -/

theorem one_eq : one = 2 ^ 1074 := rfl

theorem one_mul_two_pow (k : Nat) : one * 2 ^ k = 2 ^ (1074 + k) := by
  rw [one_eq, Nat.pow_add]

theorem one_pos : 0 < one := by
  rw [one_eq]
  apply Nat.pow_pos
  decide

theorem one_le_one_mul (k : Nat) : one ≤ one * 2 ^ k :=
  Nat.le_mul_of_pos_right one (Nat.two_pow_pos k)

theorem nearest_le_one_mul {num den k : Nat} (h : num ≤ den * (one * 2 ^ k)) :
    nearest num den ≤ one * 2 ^ k := by
  rw [one_mul_two_pow] at h ⊢
  exact nearest_le h

theorem inRange_of_units_le {x : Binary64} {k : Nat} (h : x.units ≤ one * 2 ^ k)
    (hk : k < 1024) : x.InRange := by
  refine Nat.lt_of_le_of_lt h ?_
  rw [Nat.mul_comm]
  exact Nat.mul_lt_mul_of_pos_right (Nat.pow_lt_pow_right (by decide) hk) one_pos

theorem units_ofNat_le {n k : Nat} (h : n ≤ 2 ^ k) : (ofNat n).units ≤ one * 2 ^ k := by
  apply nearest_le_one_mul
  rw [Nat.one_mul, Nat.mul_comm]
  exact Nat.mul_le_mul_left one h

theorem units_mul_le {x y : Binary64} {j k : Nat} (hx : x.units ≤ one * 2 ^ j)
    (hy : y.units ≤ one * 2 ^ k) : (x.mul y).units ≤ one * 2 ^ (j + k) := by
  apply nearest_le_one_mul
  calc
    x.units * y.units ≤ (one * 2 ^ j) * (one * 2 ^ k) := Nat.mul_le_mul hx hy
    _ = one * (one * 2 ^ (j + k)) := by
      rw [Nat.pow_add, Nat.mul_assoc, Nat.mul_left_comm (2 ^ j)]

theorem units_div_le {x y : Binary64} {k : Nat} (hx : x.units ≤ one * 2 ^ k)
    (hy : one ≤ y.units) : (x.div y).units ≤ one * 2 ^ k := by
  apply nearest_le_one_mul
  rw [Nat.mul_comm]
  exact Nat.mul_le_mul hy hx

@[simp] theorem natAbs_value (x : Binary64) : x.value.natAbs = x.units := by
  rw [value]
  split <;> omega

theorem units_add_le {x y : Binary64} {k : Nat} (hx : x.units ≤ one * 2 ^ k)
    (hy : y.units ≤ one * 2 ^ k) : (x.add y).units ≤ one * 2 ^ (k + 1) := by
  apply nearest_le_one_mul
  have hsum := Int.natAbs_add_le x.value y.value
  rw [natAbs_value, natAbs_value] at hsum
  rw [Nat.one_mul, Nat.pow_succ, ← Nat.mul_assoc]
  omega

/-- Rounding to a whole number at most doubles a magnitude from one on. -/
theorem units_round_le {x : Binary64} {k : Nat} (hx : x.units ≤ one * 2 ^ k) :
    x.round.units ≤ one * 2 ^ (k + 1) := by
  calc
    x.round.units = (2 * x.units + one) / (2 * one) * one := rfl
    _ ≤ (2 * x.units + one) / 2 := by
      rw [← Nat.div_div_eq_div_mul]
      exact Nat.div_mul_le_self _ _
    _ ≤ x.units + one := by omega
    _ ≤ one * 2 ^ k + one * 2 ^ k := Nat.add_le_add hx (one_le_one_mul k)
    _ = one * 2 ^ (k + 1) := by rw [Nat.pow_succ, ← Nat.mul_assoc, Nat.mul_two]

/-! ### Decimals -/

/-- The point of the grid of step `10 ^ exponent` at a double or just below it. -/
def gridBelow (units : Nat) (exponent : Int) : Nat :=
  units * 10 ^ (-exponent).toNat / (one * 10 ^ exponent.toNat)

theorem gridPoint?_bounds {units : Nat} {exponent : Int} {digits : Nat}
    (h : gridPoint? units exponent = some digits) :
    0 < digits ∧ digits ≤ gridBelow units exponent + 1 := by
  simp only [gridPoint?] at h
  split at h
  · rename_i hlow
    have hpos : 0 < gridBelow units exponent := hlow.2
    split at h
    · cases h
      exact ⟨Nat.succ_pos _, Nat.le_refl _⟩
    · cases h
      exact ⟨hpos, Nat.le_succ _⟩
  · split at h
    · cases h
      exact ⟨Nat.succ_pos _, Nat.le_refl _⟩
    · cases h

/-- What the search gives: some grid's point next to the double, and only the last
    grid's point may be zero. -/
structure IsFound (units : Nat) (exponent : Int) (steps : Nat) (d : Decimal) : Prop where
  exponent_le : d.exponent ≤ exponent
  digits_le : d.digits ≤ gridBelow units d.exponent + 1
  nonzero : 0 < d.digits ∨
    d.exponent = exponent - steps ∧ d.digits = gridBelow units d.exponent

theorem isFound_shortestFrom (units : Nat) (exponent : Int) (steps : Nat) :
    IsFound units exponent steps (shortestFrom units exponent steps) := by
  induction steps generalizing exponent with
  | zero =>
    exact ⟨Int.le_refl _, Nat.le_succ _, Or.inr ⟨(Int.sub_zero exponent).symm, rfl⟩⟩
  | succ steps ih =>
    rw [shortestFrom]
    split
    · rename_i digits hpoint
      obtain ⟨hpos, hle⟩ := gridPoint?_bounds hpoint
      exact ⟨Int.le_refl _, hle, Or.inl hpos⟩
    · have hrest := ih (exponent - 1)
      refine ⟨by have := hrest.exponent_le; omega, hrest.digits_le, ?_⟩
      rcases hrest.nonzero with hpos | ⟨hlast, hdigits⟩
      · exact Or.inl hpos
      · exact Or.inr ⟨by omega, hdigits⟩

/-- Not larger than `2²⁰⁰`, which is far from the end of the range. -/
def IsModerate (x : Binary64) : Prop := x.units ≤ one * 2 ^ 200

section Shortest

variable {x : Binary64} (hmoderate : x.IsModerate)
include hmoderate

theorem log2_le_of_isModerate : x.units.log2 ≤ 1074 + 200 :=
  log2_le (Nat.le_trans hmoderate (Nat.le_of_eq (one_mul_two_pow 200)))

theorem exponent_shortest_le : (shortest x.units).exponent ≤ 61 := by
  have hlog := log2_le_of_isModerate hmoderate
  have hfound := (isFound_shortestFrom x.units (coarseExponent x.units) 20).exponent_le
  refine Int.le_trans hfound ?_
  rw [coarseExponent]
  omega

theorem gridBelow_pos (hnonzero : x.units ≠ 0) {e : Nat}
    (he : (e : Int) = coarseExponent x.units - 20) : 0 < gridBelow x.units e := by
  have hlog := log2_le_of_isModerate hmoderate
  rw [coarseExponent] at he
  have hfine : 1074 + 4 * e ≤ x.units.log2 := by omega
  have hunits : one * 10 ^ e ≤ x.units := by
    calc
      one * 10 ^ e ≤ one * (2 ^ 4) ^ e :=
        Nat.mul_le_mul_left _ (Nat.pow_le_pow_left (by decide) e)
      _ = 2 ^ (1074 + 4 * e) := by rw [← Nat.pow_mul, one_mul_two_pow]
      _ ≤ 2 ^ x.units.log2 := Nat.pow_le_pow_right (by decide) hfine
      _ ≤ x.units := Nat.log2_self_le hnonzero
  rw [gridBelow, Int.toNat_of_nonpos (by omega), Nat.pow_zero, Nat.mul_one, Int.toNat_natCast]
  exact Nat.div_pos hunits (Nat.mul_pos one_pos (Nat.pow_pos (by decide)))

/-- Only a decimal that needs no zeros behind its digits can be without a digit. -/
theorem shortest_nonzero (hnonzero : x.units ≠ 0) :
    0 < (shortest x.units).digits ∨ (shortest x.units).exponent ≤ 0 := by
  have hfound := isFound_shortestFrom x.units (coarseExponent x.units) 20
  rw [← shortest] at hfound
  rcases hfound.nonzero with hpos | ⟨hexponent, hdigits⟩
  · exact Or.inl hpos
  · cases h : (shortest x.units).exponent with
    | ofNat e =>
      rw [h] at hexponent hdigits
      rw [hdigits]
      exact Or.inl (gridBelow_pos hmoderate hnonzero hexponent)
    | negSucc e => exact Or.inr (Int.le_of_lt (Int.negSucc_lt_zero e))

theorem gridBelow_le (e : Int) : gridBelow x.units e ≤ 2 ^ 200 * 10 ^ (-e).toNat := by
  apply Nat.div_le_of_le_mul
  calc
    x.units * 10 ^ (-e).toNat ≤ one * 2 ^ 200 * 10 ^ (-e).toNat :=
      Nat.mul_le_mul_right _ hmoderate
    _ ≤ one * 10 ^ e.toNat * (2 ^ 200 * 10 ^ (-e).toNat) := by
      rw [Nat.mul_assoc]
      exact Nat.mul_le_mul_right _ (Nat.le_mul_of_pos_right one (Nat.pow_pos (by decide)))

theorem digits_shortest_lt :
    (shortest x.units).digits < 10 ^ (61 + (-(shortest x.units).exponent).toNat) := by
  have hfound := (isFound_shortestFrom x.units (coarseExponent x.units) 20).digits_le
  rw [← shortest] at hfound
  have hgrid := gridBelow_le hmoderate (shortest x.units).exponent
  have hpos : 0 < 10 ^ (-(shortest x.units).exponent).toNat := Nat.pow_pos (by decide)
  rw [Nat.pow_add]
  omega

end Shortest

end SessionLog.Binary64
