/-
  SessionLog/Binary64/Fixed.lean
  ==============================
  **Doubles with a fixed number of decimal places.**

  The exact value is rounded, a tie going to the even last digit. The sign stays
  even when only zeros are left.
-/
import SessionLog.Binary64.Basic
import SessionLog.Text.Digits

namespace SessionLog.Binary64

/-- The double with `places` digits after the point, one at least. -/
def toFixed (places : Nat) (x : Binary64) : List Char :=
  let scaled := divEven (x.units * Nat.pow 10 places) one
  let sign := if x.negative then ['-'] else []
  sign ++ Text.digits (scaled / Nat.pow 10 places)
    ++ '.' :: Text.padded places (scaled % Nat.pow 10 places)

end SessionLog.Binary64
