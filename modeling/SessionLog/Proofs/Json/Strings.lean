/-
  SessionLog/Proofs/Json/Strings.lean
  ===================================
  **Quoted strings are read back, whatever characters they have.**

  Every character is written as one piece of a string: as itself, behind a backslash, or
  as a code unit. What is written as a code unit is a control character and so no half of
  a pair, and the pieces of a text spell that text.
-/
import Mathlib.Tactic.IntervalCases
import SessionLog.Json.Printer
import SessionLog.Json.Reader

namespace SessionLog

/-! ### Escapes -/

/-- The character has an escape of one letter, or none at all. -/
def isShort (c : Char) : Bool :=
  0x20 ≤ c.toNat || c.toNat == 0x08 || c.toNat == 0x09 || c.toNat == 0x0A || c.toNat == 0x0C ||
    c.toNat == 0x0D

def pieceOf (c : Char) : Piece := if isShort c then .char c else .unit c.toNat

theorem stringBody_escapeChar_of_lt {n : Nat} (h : n < 0x20) (seen : List Piece)
    (rest : List Char) :
    Raw.stringBody seen (escapeChar (Char.ofNat n) ++ rest) =
      Raw.stringBody (pieceOf (Char.ofNat n) :: seen) rest := by
  interval_cases n <;> rfl

/-- Reading a string goes on behind each escaped character with its piece. -/
theorem stringBody_escapeChar (c : Char) (seen : List Piece) (rest : List Char) :
    Raw.stringBody seen (escapeChar c ++ rest) = Raw.stringBody (pieceOf c :: seen) rest := by
  rw [escapeChar]
  split
  · subst_vars
    rfl
  split
  · subst_vars
    rfl
  split
  · rename_i hquote hslash hplain
    have hpiece : pieceOf c = .char c := if_pos (by simp [isShort, hplain])
    rw [List.singleton_append, Raw.stringBody.eq_def]
    split
    · rename_i heq
      cases heq
    · rename_i heq
      cases heq
      exact absurd rfl hquote
    · rename_i heq
      cases heq
      exact absurd rfl hslash
    · rename_i heq
      cases heq
      exact absurd rfl hslash
    · rename_i heq
      cases heq
      rw [if_neg (Nat.not_lt.2 hplain), hpiece]
  · rename_i hquote hslash hlow
    have hcontrol := stringBody_escapeChar_of_lt (Nat.not_le.1 hlow) seen rest
    rw [Char.ofNat_toNat, escapeChar, if_neg hquote, if_neg hslash, if_neg hlow] at hcontrol
    exact hcontrol

theorem stringBody_text (text : List Char) (seen : List Piece) (rest : List Char) :
    Raw.stringBody seen (text.flatMap escapeChar ++ '"' :: rest) =
      some (seen.reverse ++ text.map pieceOf, rest) := by
  induction text generalizing seen with
  | nil =>
    rw [List.map_nil, List.append_nil]
    rfl
  | cons c text ih =>
    rw [List.flatMap_cons, List.append_assoc, stringBody_escapeChar, ih]
    simp

/-! ### Spelling -/

theorem decode_unit {code : Nat} (h : code < 0x20) (seen : List Char) (rest : List Piece) :
    Piece.decode seen (.unit code :: rest) = Piece.decode (Char.ofNat code :: seen) rest := by
  have hhigh : Piece.isHigh code = false := by
    simp only [Piece.isHigh, Bool.and_eq_false_iff, decide_eq_false_iff_not]
    omega
  have hlow : Piece.isLow code = false := by
    simp only [Piece.isLow, Bool.and_eq_false_iff, decide_eq_false_iff_not]
    omega
  cases rest with
  | nil => simp [Piece.decode, hhigh, hlow]
  | cons piece rest => cases piece <;> simp [Piece.decode, hhigh, hlow]

theorem decode_pieceOf (c : Char) (seen : List Char) (rest : List Piece) :
    Piece.decode seen (pieceOf c :: rest) = Piece.decode (c :: seen) rest := by
  rw [pieceOf]
  split
  · rfl
  · rename_i h
    have hlow : c.toNat < 0x20 := by
      simp only [isShort, Bool.or_eq_true, decide_eq_true_eq, beq_iff_eq, not_or] at h
      omega
    rw [decode_unit hlow, Char.ofNat_toNat]

theorem decode_pieces (text seen : List Char) :
    Piece.decode seen (text.map pieceOf) = some (seen.reverse ++ text) := by
  induction text generalizing seen with
  | nil => simp [Piece.decode]
  | cons c text ih =>
    rw [List.map_cons, decode_pieceOf, ih, List.reverse_cons, List.append_assoc,
      List.singleton_append]

@[simp] theorem string?_pieces (text : String) :
    Piece.string? (text.toList.map pieceOf) = some text := by
  rw [Piece.string?, decode_pieces, Option.map_some, List.reverse_nil, List.nil_append,
    String.ofList_toList]

end SessionLog
