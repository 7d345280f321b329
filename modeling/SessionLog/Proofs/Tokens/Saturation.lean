/-
  SessionLog/Proofs/Tokens/Saturation.lean
  ========================================
  **Saturating sums of tokens.**

  A sum that does not fit is cut to the greatest count, but it does not matter when:
  saturating addition is associative and commutative, so a total does not depend on
  how its terms are grouped. It is monotone as well, so leaving terms out never makes
  a total greater.
-/
import SessionLog.Tokens

namespace SessionLog.Tokens

/-! ### One category -/

theorem toNat_le_maxCount (n : UInt64) : n.toNat ≤ maxCount := by
  have h := n.toNat_lt
  simp only [maxCount]
  omega

theorem addCount_comm (a b : UInt64) : addCount a b = addCount b a := by
  apply UInt64.toNat_inj.1
  grind

/-- Cutting a partial sum to the greatest count is not seen in the whole sum. -/
theorem addCount_assoc (a b c : UInt64) :
    addCount (addCount a b) c = addCount a (addCount b c) := by
  apply UInt64.toNat_inj.1
  grind

@[simp] theorem addCount_zero (a : UInt64) : addCount a 0 = a := by
  apply UInt64.toNat_inj.1
  have h := toNat_le_maxCount a
  rw [toNat_addCount, UInt64.toNat_zero]
  omega

@[simp] theorem addCount_eq_zero_iff {a b : UInt64} : addCount a b = 0 ↔ a = 0 ∧ b = 0 := by
  rw [← UInt64.toNat_inj, ← UInt64.toNat_inj, ← UInt64.toNat_inj, toNat_addCount]
  simp only [UInt64.toNat_zero, maxCount]
  omega

theorem addCount_le_addCount {a b c d : UInt64} (hac : a ≤ c) (hbd : b ≤ d) :
    addCount a b ≤ addCount c d := by
  rw [UInt64.le_iff_toNat_le] at hac hbd ⊢
  grind

theorem addCount_pos {a : UInt64} (ha : 0 < a) (b : UInt64) : 0 < addCount a b := by
  rw [UInt64.lt_iff_toNat_lt, UInt64.toNat_zero] at ha ⊢
  have hmax := toNat_le_maxCount a
  rw [toNat_addCount]
  omega

/-! ### All categories -/

/-- At most as many in every category. -/
instance : LE Tokens where
  le a b := a.input ≤ b.input ∧ a.output ≤ b.output ∧ a.cacheRead ≤ b.cacheRead ∧
    a.cacheCreation ≤ b.cacheCreation

theorem le_refl (a : Tokens) : a ≤ a :=
  ⟨UInt64.le_refl _, UInt64.le_refl _, UInt64.le_refl _, UInt64.le_refl _⟩

theorem le_trans {a b c : Tokens} (hab : a ≤ b) (hbc : b ≤ c) : a ≤ c :=
  ⟨UInt64.le_trans hab.1 hbc.1, UInt64.le_trans hab.2.1 hbc.2.1,
    UInt64.le_trans hab.2.2.1 hbc.2.2.1, UInt64.le_trans hab.2.2.2 hbc.2.2.2⟩

theorem add_comm (a b : Tokens) : a.add b = b.add a := by
  simp only [add, addCount_comm]

theorem add_assoc (a b c : Tokens) : (a.add b).add c = a.add (b.add c) := by
  simp only [add, addCount_assoc]

@[simp] theorem add_zero (a : Tokens) : a.add zero = a := by
  simp [add, zero]

@[simp] theorem zero_add (a : Tokens) : zero.add a = a := by
  rw [add_comm, add_zero]

theorem add_le_add {a b c d : Tokens} (hac : a ≤ c) (hbd : b ≤ d) : a.add b ≤ c.add d :=
  ⟨addCount_le_addCount hac.1 hbd.1, addCount_le_addCount hac.2.1 hbd.2.1,
    addCount_le_addCount hac.2.2.1 hbd.2.2.1, addCount_le_addCount hac.2.2.2 hbd.2.2.2⟩

theorem zero_le (a : Tokens) : zero ≤ a := by
  refine ⟨?_, ?_, ?_, ?_⟩ <;> exact UInt64.le_iff_toNat_le.2 (Nat.zero_le _)

theorem le_add_right (a b : Tokens) : a ≤ a.add b := by
  have h := add_le_add (le_refl a) (zero_le b)
  rwa [add_zero] at h

end SessionLog.Tokens
