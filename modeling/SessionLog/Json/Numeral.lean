/-
  SessionLog/Json/Numeral.lean
  ============================
  **The number that a numeral stands for.**

  Without point and exponent a numeral is an integer as long as it fits 64 bits;
  a negative one has to fit them signed, and `-0` is the double of that sign.

  Any other numeral is a double. Its significand is made of the first digits that
  fit 64 unsigned bits: digits of the whole part that are left over count as
  powers of ten, those behind the point are dropped. The significand is rounded
  to a double and scaled by one power of ten, itself rounded; that is close to
  the exact value, but not always the double nearest to it. A magnitude past the
  largest finite double is refused.
-/
import SessionLog.Json.Basic
import SessionLog.Json.Raw

namespace SessionLog

namespace Numeral

/-- Appends digits to a significand as long as it fits 64 unsigned bits; also
    gives the digits that were not read. -/
def significand (start : Nat) : List Nat → Nat × List Nat
  | [] => (start, [])
  | d :: rest =>
    if start * 10 + d < 0x10000000000000000 then significand (start * 10 + d) rest
    else (start, d :: rest)

def ofDigits (digits : List Nat) : Nat := digits.foldl (fun n d => n * 10 + d) 0

def tenTo (n : Nat) : Binary64 := .ofNat (Nat.pow 10 n)

def maxTen : Nat := 308

/-- A significand divided by a power of ten. Beyond `10³⁰⁸` the division is done
    in two steps; beyond `10⁶¹⁶` nothing is left. -/
def scaleDown (x : Binary64) (power : Nat) : Binary64 :=
  if power ≤ maxTen then x.div (tenTo power)
  else if power ≤ 2 * maxTen then (x.div (tenTo maxTen)).div (tenTo (power - maxTen))
  else .zero

/-- A significand times a power of ten, unless it leaves the range. -/
def scale? (significand : Nat) (exponent : Int) : Option Binary64 :=
  let x := Binary64.ofNat significand
  if exponent < 0 then some (scaleDown x exponent.natAbs)
  else if significand = 0 then some .zero
  else if maxTen < exponent.toNat then none
  else
    let scaled := x.mul (tenTo exponent.toNat)
    if scaled.InRange then some scaled else none

def signed (numeral : Numeral) (x : Binary64) : Binary64 := ⟨numeral.negative, x.units⟩

def writtenExponent (numeral : Numeral) : Int :=
  match numeral.exponent with
  | none => 0
  | some (true, digits) => -(ofDigits digits : Int)
  | some (false, digits) => ofDigits digits

def toReal? (numeral : Numeral) : Option Binary64 :=
  let (whole, unread) := significand 0 numeral.whole
  let fraction := numeral.fraction.getD []
  let (all, dropped) := significand whole fraction
  let read : Int := fraction.length - dropped.length
  (scale? all (unread.length - read + numeral.writtenExponent)).map numeral.signed

def toNumber? (numeral : Numeral) : Option Number :=
  match numeral.fraction, numeral.exponent, significand 0 numeral.whole with
  | none, none, (n, []) =>
    if !numeral.negative then some (.integer n)
    else if 0 < n ∧ n ≤ 0x8000000000000000 then some (.integer (-n))
    else some (.real (numeral.signed (.ofNat n)))
  | _, _, _ => numeral.toReal?.map .real

end Numeral

end SessionLog
