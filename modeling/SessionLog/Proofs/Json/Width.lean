/-
  SessionLog/Proofs/Json/Width.lean
  =================================
  **The text of a number has at most 27 characters.**

  An integer has at most twenty digits and a sign. A double has at most twenty digits, a sign
  and a point, and beside them an exponent with its sign or a few zeros.
-/
import SessionLog.Json.Printer
import SessionLog.Proofs.Binary64.Digits
import SessionLog.Proofs.Text.Digits

namespace SessionLog

open Binary64

/-- A number of the sizes that a document can have: an integer of 64 bits, signed or unsigned,
    or a finite double. -/
def Number.InRange : Number → Prop
  | .integer n => minSigned ≤ n ∧ n ≤ maxUnsigned
  | .real x => x.InRange

theorem length_renderInteger_le {n : Int} {width : Nat} (hwidth : 0 < width)
    (h : n.natAbs < 10 ^ width) : (renderInteger n).length ≤ width + 1 := by
  cases n with
  | ofNat n => exact Nat.le_succ_of_le (Text.length_digits_le hwidth h)
  | negSucc n => exact Nat.succ_le_succ (Text.length_digits_le hwidth h)

/-! ### Layouts of doubles -/

theorem length_placePoint_le {digits : List Char} {width : Nat} (hdigits : digits.length ≤ width)
    {whole : Int} (hlow : -4 ≤ whole) (hhigh : whole ≤ width) :
    (placePoint digits whole).length ≤ width + 6 := by
  rw [placePoint]
  split
  · rw [List.length_cons, List.length_cons, List.length_append, List.length_replicate]
    omega
  · split
    · rw [List.length_append, List.length_append, List.length_replicate]
      change digits.length + (whole.toNat - digits.length) + 2 ≤ width + 6
      omega
    · rw [List.length_append, List.length_cons, List.length_take, List.length_drop]
      omega

theorem length_scientific_le {digits : List Char} {width : Nat} (hdigits : digits.length ≤ width)
    {exponent : Int} (hexponent : exponent.natAbs < 10 ^ 3) :
    (scientific realForm digits exponent).length ≤ width + 6 := by
  have hpower := Text.length_digits_le (by decide) hexponent
  have hsign : (if exponent < 0 then ['-'] else realForm.plus).length = 1 := by split <;> rfl
  rcases digits with _ | ⟨first, _ | ⟨second, rest⟩⟩
  all_goals
    simp only [scientific, List.length_append, List.length_cons, hsign] at hdigits ⊢
    omega

theorem length_renderDecimal_le {d : Decimal} (hdigits : d.digits < 10 ^ 20)
    (hlow : -343 ≤ d.exponent) (hhigh : d.exponent ≤ 309) :
    (renderDecimal realForm d).length ≤ 26 := by
  have hlength := Text.length_digits_le (by decide) hdigits
  rw [renderDecimal]
  split
  · rename_i hplain
    obtain ⟨hfrom, hto⟩ : -5 ≤ _ ∧ _ ≤ 15 := hplain
    exact length_placePoint_le hlength (by omega) (by omega)
  · exact length_scientific_le hlength (by omega)

theorem length_renderReal_le {x : Binary64} (h : x.InRange) : (renderReal x).length ≤ 27 := by
  have hsign : (if x.negative then ['-'] else []).length ≤ 1 := by split <;> decide
  rw [renderReal]
  split
  · rw [List.length_append]
    exact Nat.le_trans (Nat.add_le_add_right hsign _) (by decide)
  · obtain ⟨hlow, hhigh⟩ := h.exponent_shortest_bounds
    rw [List.length_append]
    have hdecimal := length_renderDecimal_le h.digits_shortest_lt hlow hhigh
    omega

theorem Number.InRange.length_render_le {number : Number} (h : number.InRange) :
    number.render.length ≤ 27 := by
  cases number with
  | integer n =>
    obtain ⟨hlow, hhigh⟩ := h
    rw [minSigned] at hlow
    rw [maxUnsigned] at hhigh
    have hsize : n.natAbs < 10 ^ 20 := by omega
    exact Nat.le_trans (length_renderInteger_le (by decide) hsize) (by decide)
  | real x => exact length_renderReal_le h

end SessionLog
