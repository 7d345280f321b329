/-
  SessionLog/Proofs/Tokens/Cost.lean
  ==================================
  **How high a cost can be.**

  Counts have 64 bits and no price is above 16, so no cost comes near the end of the
  range. The bound is crude: dividing by a million is only taken not to raise it.
-/
import SessionLog.Proofs.Binary64.Bounds
import SessionLog.Tokens

namespace SessionLog

namespace Binary64

theorem units_ofRatio_le {num den k : Nat} (h : num ≤ den * 2 ^ k) :
    (ofRatio num den).units ≤ one * 2 ^ k := by
  apply nearest_le_one_mul
  rw [Nat.mul_left_comm, Nat.mul_comm num]
  exact Nat.mul_le_mul_left one h

theorem one_mul_two_pow_le {j k : Nat} (h : j ≤ k) : one * 2 ^ j ≤ one * 2 ^ k :=
  Nat.mul_le_mul_left one (Nat.pow_le_pow_right (by decide) h)

end Binary64

namespace Tokens

open Binary64

theorem units_charge_le (count : UInt64) {price : Binary64} (h : price.units ≤ one * 2 ^ 4) :
    (charge count price).units ≤ one * 2 ^ (64 + 4) :=
  units_mul_le (units_ofNat_le (Nat.le_of_lt count.toNat_lt)) h

theorem units_roundCost_le {x : Binary64} {k : Nat} (h : x.units ≤ one * 2 ^ k) :
    (roundCost x).units ≤ one * 2 ^ (k + 14 + 1) := by
  have hscaled := units_mul_le h (units_ofNat_le (show 10000 ≤ 2 ^ 14 by decide))
  exact units_div_le (units_round_le hscaled) (by decide +kernel)

theorem isModerate_cost (tokens : Tokens) : tokens.cost.IsModerate := by
  have hinput := units_charge_le tokens.input (units_ofNat_le (show 3 ≤ 2 ^ 4 by decide))
  have houtput := units_charge_le tokens.output (units_ofNat_le (show 15 ≤ 2 ^ 4 by decide))
  have hread := units_charge_le tokens.cacheRead
    (units_ofRatio_le (show 30 ≤ 100 * 2 ^ 4 by decide))
  have hcreation := units_charge_le tokens.cacheCreation
    (units_ofRatio_le (show 375 ≤ 100 * 2 ^ 4 by decide))
  have hfresh := units_add_le hinput houtput
  have hsum := units_add_le hfresh (Nat.le_trans hread (one_mul_two_pow_le (by decide)))
  have hall := units_add_le hsum (Nat.le_trans hcreation (one_mul_two_pow_le (by decide)))
  have hdollars := units_div_le (y := ofNat 1000000) hall (by decide +kernel)
  have hcost := units_roundCost_le hdollars
  rw [IsModerate, cost]
  exact Nat.le_trans hcost (one_mul_two_pow_le (by decide))

end Tokens

end SessionLog
