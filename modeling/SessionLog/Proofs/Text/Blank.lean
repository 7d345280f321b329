/-
  SessionLog/Proofs/Text/Blank.lean
  =================================
  **What trimming takes from a text, and what it does not see.**

  A text is its trimmed form with blanks at both ends. Blanks that are put in front of it or
  behind it are not seen in that form, and of blanks alone nothing is left.
-/
import Mathlib.Data.List.TakeWhile
import SessionLog.Text.Blank

namespace SessionLog.Text

variable {front text : List Char}

theorem isAllBlank_iff : isAllBlank text = true ↔ ∀ c ∈ text, isBlank c = true := by
  rw [isAllBlank, List.all_eq_true]

@[simp] theorem isAllBlank_append :
    isAllBlank (front ++ text) = true ↔ isAllBlank front = true ∧ isAllBlank text = true := by
  rw [isAllBlank, List.all_append, Bool.and_eq_true]
  rfl

theorem trim_eq_nil (h : isAllBlank text = true) : trim text = [] := by
  have hstart : trimStart text = [] := List.dropWhile_eq_nil_iff.2 (isAllBlank_iff.1 h)
  rw [trim, hstart]
  rfl

theorem trim_append_left (h : isAllBlank front = true) : trim (front ++ text) = trim text := by
  rw [trim, trimStart, List.dropWhile_append_of_pos (isAllBlank_iff.1 h)]
  rfl

theorem trim_append_right {back : List Char} (h : isAllBlank back = true) :
    trim (text ++ back) = trim text := by
  cases htext : isAllBlank text with
  | true => rw [trim_eq_nil htext, trim_eq_nil (isAllBlank_append.2 ⟨htext, h⟩)]
  | false =>
    have hstart : (text.dropWhile isBlank).isEmpty = false := by
      rw [List.isEmpty_eq_false_iff, Ne, List.dropWhile_eq_nil_iff, ← isAllBlank_iff, htext]
      exact Bool.false_ne_true
    have hback : ∀ c ∈ back.reverse, isBlank c = true := fun c hc =>
      isAllBlank_iff.1 h c (List.mem_reverse.1 hc)
    simp only [trim, trimStart, trimEnd, List.dropWhile_append, hstart, Bool.false_eq_true,
      if_false, List.reverse_append, List.dropWhile_append_of_pos hback]

/-- Trimming takes blanks alone, from both ends. -/
theorem exists_blanks_around (text : List Char) :
    ∃ front back, text = front ++ (trim text ++ back) ∧ isAllBlank front = true ∧
      isAllBlank back = true := by
  refine ⟨text.takeWhile isBlank, ((trimStart text).reverse.takeWhile isBlank).reverse,
    ?_, ?_, ?_⟩
  · rw [trim, trimEnd, ← List.reverse_append, List.takeWhile_append_dropWhile,
      List.reverse_reverse, trimStart, List.takeWhile_append_dropWhile]
  · exact List.all_takeWhile
  · rw [isAllBlank, List.all_reverse]
    exact List.all_takeWhile

end SessionLog.Text
