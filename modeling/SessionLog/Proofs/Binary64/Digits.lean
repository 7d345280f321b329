/-
  SessionLog/Proofs/Binary64/Digits.lean
  ======================================
  **The shortest decimal of a double has at most twenty digits.**

  The search begins on a grid so coarse that zero is the only point at or below the double.
  From there every grid is ten times finer than the one before, so the number of the point
  below the double gains one digit from grid to grid, and the search ends after twenty.
-/
import SessionLog.Proofs.Binary64.Bounds

namespace SessionLog.Binary64

/-! ### From grid to grid -/

theorem gridBelow_lt_iff {units bound : Nat} {exponent : Int} :
    gridBelow units exponent < bound ↔
      units * 10 ^ (-exponent).toNat < bound * (one * 10 ^ exponent.toNat) :=
  Nat.div_lt_iff_lt_mul (Nat.mul_pos one_pos (Nat.pow_pos (by decide)))

/-- On the next grid the point below a double has one more digit at most. -/
theorem gridBelow_pred_lt {units width : Nat} {exponent : Int}
    (h : gridBelow units exponent < 10 ^ width) :
    gridBelow units (exponent - 1) < 10 ^ (width + 1) := by
  rw [gridBelow_lt_iff] at h ⊢
  -- what counts is the power of ten behind the unit
  generalize one = unit at h ⊢
  rcases Int.lt_or_le 0 exponent with hpos | hnonpos
  · obtain ⟨e, rfl⟩ : ∃ e : Nat, exponent = e + 1 := ⟨(exponent - 1).toNat, by omega⟩
    have hfine : (e + 1 : Int) - 1 = e := by omega
    rw [hfine, Int.toNat_of_nonpos (by omega), Int.toNat_natCast]
    rw [Int.toNat_of_nonpos (by omega), Int.toNat_natCast_add_one] at h
    calc
      units * 10 ^ 0 < 10 ^ width * (unit * 10 ^ (e + 1)) := h
      _ = 10 ^ (width + 1) * (unit * 10 ^ e) := by
        rw [Nat.pow_succ, Nat.pow_succ, ← Nat.mul_assoc unit, Nat.mul_comm _ 10, ← Nat.mul_assoc]
  · obtain ⟨e, rfl⟩ : ∃ e : Nat, exponent = -e := ⟨(-exponent).toNat, by omega⟩
    have hfine : (-(-(e : Int) - 1)).toNat = e + 1 := by omega
    rw [hfine, Int.toNat_of_nonpos (by omega), Nat.pow_zero, Nat.mul_one]
    rw [Int.neg_neg, Int.toNat_natCast, Int.toNat_of_nonpos (by omega), Nat.pow_zero,
      Nat.mul_one] at h
    calc
      units * 10 ^ (e + 1) = units * 10 ^ e * 10 := by rw [Nat.pow_succ, Nat.mul_assoc]
      _ < 10 ^ width * unit * 10 := (Nat.mul_lt_mul_right (by decide)).2 h
      _ = 10 ^ (width + 1) * unit := by rw [Nat.pow_succ, Nat.mul_right_comm]

/-- Each further grid adds one digit at most. -/
theorem digits_shortestFrom_lt {units width : Nat} {exponent : Int}
    (h : gridBelow units exponent < 10 ^ width) (steps : Nat) :
    (shortestFrom units exponent steps).digits < 10 ^ (width + steps) := by
  induction steps generalizing exponent width with
  | zero => exact h
  | succ steps ih =>
    rw [shortestFrom]
    split
    · rename_i digits hpoint
      have hle := (gridPoint?_bounds hpoint).2
      calc
        digits ≤ 10 ^ width := Nat.le_trans hle h
        _ < 10 ^ (width + (steps + 1)) := Nat.pow_lt_pow_right (by decide) (by omega)
    · have hrest := ih (gridBelow_pred_lt h)
      rwa [Nat.add_assoc, Nat.add_comm 1] at hrest

theorem exponent_sub_le_shortestFrom (units : Nat) (exponent : Int) (steps : Nat) :
    exponent - steps ≤ (shortestFrom units exponent steps).exponent := by
  induction steps generalizing exponent with
  | zero => exact Int.le_of_eq (Int.sub_zero exponent)
  | succ steps ih =>
    rw [shortestFrom]
    split
    · exact Int.sub_le_self exponent (Int.natCast_nonneg _)
    · have hrest := ih (exponent - 1)
      omega

/-! ### The first grid -/

/-- The exponent of the first grid for a magnitude with a given logarithm. -/
def firstExponent (log : Nat) : Int := ((log : Int) - 1073) * 30103 / 100000 + 1

theorem coarseExponent_eq (units : Nat) : coarseExponent units = firstExponent units.log2 := rfl

/-- The steps of the first grids lie above the magnitudes. The logarithm of two is rounded
    up in the fifth place, so this holds within the range of doubles and not far beyond it. -/
theorem two_pow_le_firstGrid : ∀ log < 2098,
    2 ^ (log + 1) * 10 ^ (-firstExponent log).toNat ≤ one * 10 ^ (firstExponent log).toNat := by
  decide +kernel

theorem gridBelow_coarseExponent {units : Nat} (h : units.log2 < 2098) :
    gridBelow units (coarseExponent units) < 10 ^ 0 := by
  rw [gridBelow_lt_iff, Nat.pow_zero, Nat.one_mul, coarseExponent_eq]
  calc
    units * 10 ^ (-firstExponent units.log2).toNat
        < 2 ^ (units.log2 + 1) * 10 ^ (-firstExponent units.log2).toNat :=
      Nat.mul_lt_mul_of_pos_right Nat.lt_log2_self (Nat.pow_pos (by decide))
    _ ≤ one * 10 ^ (firstExponent units.log2).toNat := two_pow_le_firstGrid _ h

/-! ### Finite doubles -/

theorem log2_lt_of_lt {n k : Nat} (hk : 0 < k) (h : n < 2 ^ k) : n.log2 < k := by
  rcases Nat.eq_zero_or_pos n with rfl | hpos
  · rwa [Nat.log2_zero]
  · exact (Nat.log2_lt (Nat.pos_iff_ne_zero.1 hpos)).2 h

theorem range_eq : Nat.pow 2 1024 * one = 2 ^ 2098 := by decide +kernel

theorem InRange.log2_lt {x : Binary64} (h : x.InRange) : x.units.log2 < 2098 := by
  rw [InRange, range_eq] at h
  exact log2_lt_of_lt (by decide) h

theorem InRange.digits_shortest_lt {x : Binary64} (h : x.InRange) :
    (shortest x.units).digits < 10 ^ 20 :=
  digits_shortestFrom_lt (gridBelow_coarseExponent h.log2_lt) 20

theorem InRange.exponent_shortest_bounds {x : Binary64} (h : x.InRange) :
    -343 ≤ (shortest x.units).exponent ∧ (shortest x.units).exponent ≤ 309 := by
  have hlog := h.log2_lt
  have hlow := exponent_sub_le_shortestFrom x.units (coarseExponent x.units) 20
  have hhigh := (isFound_shortestFrom x.units (coarseExponent x.units) 20).exponent_le
  rw [← shortest] at hlow hhigh
  rw [coarseExponent_eq, firstExponent] at hlow hhigh
  omega

end SessionLog.Binary64
