/-
  SessionLog/Text/Digits.lean
  ===========================
  **Natural numbers in decimal digits.**

  Writing gives the digits without leading zeros, or filled up with zeros to a
  width. Reading takes the digits at the front of a text, at least and at most so
  many of them.
-/
namespace SessionLog.Text

/-! ### Writing -/

def digits (n : Nat) : List Char := Nat.toDigits 10 n

/-- At least `width` digits, filled up with zeros in front. -/
def padded (width n : Nat) : List Char :=
  List.replicate (width - (digits n).length) '0' ++ digits n

/-! ### Reading -/

def isDigit (c : Char) : Bool := '0' ≤ c && c ≤ '9'

def digitValue (c : Char) : Nat := c.toNat - 0x30

def hexValue? (c : Char) : Option Nat :=
  let n := c.toNat
  if 0x30 ≤ n ∧ n ≤ 0x39 then some (n - 0x30)
  else if 0x41 ≤ n ∧ n ≤ 0x46 then some (n - 0x41 + 10)
  else if 0x61 ≤ n ∧ n ≤ 0x66 then some (n - 0x61 + 10)
  else none

def ofDigits (ds : List Char) : Nat := ds.foldl (fun n c => n * 10 + digitValue c) 0

def leadingDigits (text : List Char) : List Char := text.takeWhile isDigit

/-- A number of `least` to `most` digits at the front of a text, and the rest. More
    digits than `most` are left to the rest. -/
def number? (least most : Nat) (text : List Char) : Option (Nat × List Char) :=
  let ds := leadingDigits (text.take most)
  if ds.length < least then none else some (ofDigits ds, text.drop ds.length)

end SessionLog.Text
