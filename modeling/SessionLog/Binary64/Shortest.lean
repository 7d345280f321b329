/-
  SessionLog/Binary64/Shortest.lean
  =================================
  **The shortest decimal that reads back as a given double.**

  A double stands for all reals nearer to it than to its neighbours, and for the
  two reals half way between if its last bit is zero. Decimal grids are tried
  from coarse to fine; on each, only the two grid points around the double can
  lie in that interval if any does. The first grid with a point in the interval
  gives the fewest digits. Of two such points the nearer is taken, and of two
  equally near ones the even.
-/
import SessionLog.Binary64.Basic

namespace SessionLog.Binary64

/-- A decimal: `digits · 10 ^ exponent`. -/
structure Decimal where
  digits : Nat
  exponent : Int
deriving DecidableEq, Repr

/-- The distance from a double down to the next one. -/
def gapBelow (units : Nat) : Nat :=
  let g := gap units
  if units = Nat.pow 2 52 * g ∧ 1 < g then g / 2 else g

/-- The point of the grid of step `10 ^ exponent` that the double takes, if one of
    its two neighbours there reads back. Distances are compared in units, scaled
    by `up` and `down` to stay whole. -/
def gridPoint? (units : Nat) (exponent : Int) : Option Nat :=
  let up := Nat.pow 10 (-exponent).toNat
  let down := one * Nat.pow 10 exponent.toNat
  let low := units * up / down
  let fromLow := units * up - low * down
  let fromHigh := (low + 1) * down - units * up
  let closed := units / gap units % 2 = 0
  let lowReads :=
    2 * fromLow < gapBelow units * up ∨ (closed ∧ 2 * fromLow = gapBelow units * up)
  let highReads :=
    2 * fromHigh < gap units * up ∨ (closed ∧ 2 * fromHigh = gap units * up)
  if lowReads ∧ 0 < low then
    if highReads ∧ (fromHigh < fromLow ∨ (fromHigh = fromLow ∧ low % 2 = 1)) then
      some (low + 1)
    else some low
  else if highReads then some (low + 1)
  else none

/-- The first hit on `steps` grids, each ten times finer than the one before. -/
def shortestFrom (units : Nat) (exponent : Int) : (steps : Nat) → Decimal
  | 0 => ⟨units * Nat.pow 10 (-exponent).toNat / (one * Nat.pow 10 exponent.toNat), exponent⟩
  | steps + 1 =>
    match gridPoint? units exponent with
    | some digits => ⟨digits, exponent⟩
    | none => shortestFrom units (exponent - 1) steps

/-- An exponent whose power of ten lies above `units`, at most two too high:
    `30103 / 100000` is the logarithm of two. -/
def coarseExponent (units : Nat) : Int :=
  ((units.log2 : Int) - 1073) * 30103 / 100000 + 1

/-- The shortest decimal of a magnitude other than zero. Seventeen digits always
    suffice, and the search starts at most two grids too coarse. -/
def shortest (units : Nat) : Decimal := shortestFrom units (coarseExponent units) 20

end SessionLog.Binary64
