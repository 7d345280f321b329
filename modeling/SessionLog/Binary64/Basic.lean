/-
  SessionLog/Binary64/Basic.lean
  ==============================
  **Double-precision numbers in exact integer arithmetic.**

  Every double is a whole number of units of `2⁻¹⁰⁷⁴`, the smallest of them, so a
  double is kept as a sign and a natural number of units. Comparing doubles is
  then comparing integers, and each operation is its exact result followed by one
  rounding: to the nearest number of units with at most 53 significant bits, a
  tie going to the even one.

  The type has no infinities. A result too large for a double is kept exactly as
  rounding gives it, and `InRange` tells whether it still is one.
-/
namespace SessionLog

/-- A number of units of `2⁻¹⁰⁷⁴` with a sign. Zero has both signs. -/
structure Binary64 where
  negative : Bool
  units : Nat
deriving DecidableEq, Repr

namespace Binary64

/-! ### Rounding -/

/-- The number of units in one. -/
def one : Nat := Nat.pow 2 1074

/-- The quotient rounded to the nearest whole number, a tie to the even one. -/
def divEven (num den : Nat) : Nat :=
  let q := num / den
  let r := num % den
  if 2 * r < den ∨ (2 * r = den ∧ q % 2 = 0) then q else q + 1

/-- The distance between neighbouring doubles just above `units`. -/
def gap (units : Nat) : Nat := Nat.pow 2 (units.log2 - 52)

/-- The double nearest to `num / den` units. -/
def nearest (num den : Nat) : Nat :=
  let g := gap (num / den)
  g * divEven num (den * g)

/-- At most the largest finite double. -/
def InRange (x : Binary64) : Prop := x.units < Nat.pow 2 1024 * one

instance (x : Binary64) : Decidable x.InRange := inferInstanceAs (Decidable (_ < _))

/-! ### Making doubles -/

def ofRatio (num den : Nat) : Binary64 := ⟨false, nearest (num * one) den⟩

def ofNat (n : Nat) : Binary64 := ofRatio n 1

def ofInt (n : Int) : Binary64 := ⟨decide (n < 0), nearest (n.natAbs * one) 1⟩

def zero : Binary64 := ⟨false, 0⟩

/-! ### Arithmetic -/

def value (x : Binary64) : Int := if x.negative then -x.units else x.units

def neg (x : Binary64) : Binary64 := ⟨!x.negative, x.units⟩

/-- The rounded sum. An exact zero is positive unless both terms are negative. -/
def add (x y : Binary64) : Binary64 :=
  let sum := x.value + y.value
  ⟨if sum = 0 then x.negative && y.negative else decide (sum < 0), nearest sum.natAbs 1⟩

def sub (x y : Binary64) : Binary64 := x.add y.neg

def mul (x y : Binary64) : Binary64 :=
  ⟨x.negative != y.negative, nearest (x.units * y.units) one⟩

/-- The rounded quotient by a number other than zero. -/
def div (x y : Binary64) : Binary64 :=
  ⟨x.negative != y.negative, nearest (x.units * one) y.units⟩

/-- The nearest whole number, a half going away from zero. -/
def round (x : Binary64) : Binary64 :=
  ⟨x.negative, (2 * x.units + one) / (2 * one) * one⟩

/-! ### Order -/

def isZero (x : Binary64) : Bool := x.units == 0

/-- At most, as numbers: the two zeros are equal. -/
def le (x y : Binary64) : Bool := decide (x.value ≤ y.value)

def isPositive (x : Binary64) : Bool := !x.negative && x.units != 0

end Binary64

end SessionLog
