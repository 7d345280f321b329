/-
  SessionLog/Text/Blank.lean
  ==========================
  **Blank characters, and texts without blank ends.**

  A blank is a character with the Unicode property `White_Space`: twenty-five
  characters, six of them in ASCII. A text is trimmed by dropping the blanks in
  front of its first other character and those behind its last one; a text of
  blanks alone trims to the empty text.
-/
namespace SessionLog.Text

/-! ### Blanks -/

/-- A character with the property `White_Space`. -/
def isBlank (c : Char) : Bool :=
  let n := c.toNat
  (0x09 ≤ n && n ≤ 0x0D) || n == 0x20 || n == 0x85 || n == 0xA0 || n == 0x1680
    || (0x2000 ≤ n && n ≤ 0x200A) || n == 0x2028 || n == 0x2029 || n == 0x202F
    || n == 0x205F || n == 0x3000

theorem isBlank_of_isWhitespace {c : Char} (h : c.isWhitespace = true) :
    isBlank c = true := by
  simp only [Char.isWhitespace, Bool.or_eq_true, decide_eq_true_eq] at h
  rcases h with ((h | h) | h) | h <;> subst h <;> decide

/-! ### Trimming -/

def trimStart (text : List Char) : List Char := text.dropWhile isBlank

def trimEnd (text : List Char) : List Char := (text.reverse.dropWhile isBlank).reverse

def trim (text : List Char) : List Char := trimEnd (trimStart text)

/-- A text of blanks alone, or of nothing. -/
def isAllBlank (text : List Char) : Bool := text.all isBlank

end SessionLog.Text
