/-
  SessionLog/Json/Printer.lean
  ============================
  **JSON values as text.**

  Two layouts: `render` writes no blanks at all, `renderPretty` writes each item
  and member on a line of its own, two spaces deeper than the brackets around it.
  In a string only the quote, the backslash and the control characters below
  U+0020 are escaped. A double is written with the fewest digits that read back,
  and always with a point or an exponent.
-/
import SessionLog.Json.Basic
import SessionLog.Binary64.Shortest
import SessionLog.Text.Digits

namespace SessionLog

/-! ### Numbers -/

def renderInteger : Int → List Char
  | .ofNat n => Text.digits n
  | .negSucc n => '-' :: Text.digits (n + 1)

/-- How doubles are laid out. -/
structure RealForm where
  /-- The least and the greatest decimal exponent that is written out in zeros. -/
  plainFrom : Int
  plainTo : Int
  /-- What stands in front of an exponent that is not negative. -/
  plus : List Char

/-- Magnitudes from `10⁻⁵` to below `10¹⁶` are written plainly; beyond, the exponent
    carries its sign: `1e-7`, `1e+16`. -/
def realForm : RealForm := ⟨-5, 15, ['+']⟩

/-- Digits with a point after the first `whole` of them; missing digits are zeros,
    and one digit stands on either side of the point at least. -/
def placePoint (digits : List Char) (whole : Int) : List Char :=
  if whole ≤ 0 then
    '0' :: '.' :: (List.replicate (-whole).toNat '0' ++ digits)
  else if digits.length ≤ whole.toNat then
    digits ++ List.replicate (whole.toNat - digits.length) '0' ++ ['.', '0']
  else digits.take whole.toNat ++ '.' :: digits.drop whole.toNat

/-- One digit, the others after a point, and the exponent. -/
def scientific (form : RealForm) (digits : List Char) (exponent : Int) : List Char :=
  let mantissa :=
    match digits with
    | first :: second :: rest => first :: '.' :: second :: rest
    | _ => digits
  let sign := if exponent < 0 then ['-'] else form.plus
  mantissa ++ 'e' :: (sign ++ Text.digits exponent.natAbs)

def renderDecimal (form : RealForm) (d : Binary64.Decimal) : List Char :=
  let digits := Text.digits d.digits
  let exponent := d.exponent + digits.length - 1
  if form.plainFrom ≤ exponent ∧ exponent ≤ form.plainTo then
    placePoint digits (exponent + 1)
  else scientific form digits exponent

def renderReal (x : Binary64) : List Char :=
  let sign := if x.negative then ['-'] else []
  if x.isZero then sign ++ ['0', '.', '0']
  else sign ++ renderDecimal realForm (Binary64.shortest x.units)

def Number.render : Number → List Char
  | .integer n => renderInteger n
  | .real x => renderReal x

/-! ### Strings -/

def hexDigit (n : Nat) : Char := Nat.digitChar (n % 16)

def escapeChar (c : Char) : List Char :=
  if c = '"' then ['\\', '"']
  else if c = '\\' then ['\\', '\\']
  else if 0x20 ≤ c.toNat then [c]
  else if c.toNat = 0x08 then ['\\', 'b']
  else if c.toNat = 0x09 then ['\\', 't']
  else if c.toNat = 0x0A then ['\\', 'n']
  else if c.toNat = 0x0C then ['\\', 'f']
  else if c.toNat = 0x0D then ['\\', 'r']
  else ['\\', 'u', '0', '0', hexDigit (c.toNat / 16), hexDigit c.toNat]

def renderString (text : String) : List Char :=
  '"' :: (text.toList.flatMap escapeChar ++ ['"'])

/-! ### Values -/

namespace Json

mutual

/-- A value without any blanks. -/
def render : Json → List Char
  | .null => ['n', 'u', 'l', 'l']
  | .bool true => ['t', 'r', 'u', 'e']
  | .bool false => ['f', 'a', 'l', 's', 'e']
  | .number n => n.render
  | .string text => renderString text
  | .array [] => ['[', ']']
  | .array (item :: rest) => '[' :: (render item ++ renderItems rest)
  | .object [] => ['{', '}']
  | .object ((key, value) :: rest) =>
    '{' :: (renderString key ++ ':' :: (render value ++ renderMembers rest))

/-- The items after the first, and the closing bracket. -/
def renderItems : List Json → List Char
  | [] => [']']
  | item :: rest => ',' :: (render item ++ renderItems rest)

/-- The members after the first, and the closing brace. -/
def renderMembers : List (String × Json) → List Char
  | [] => ['}']
  | (key, value) :: rest =>
    ',' :: (renderString key ++ ':' :: (render value ++ renderMembers rest))

end

def newLine (depth : Nat) : List Char := '\n' :: List.replicate (2 * depth) ' '

mutual

/-- A value over several lines, its first line at `depth`. -/
def renderAt (depth : Nat) : Json → List Char
  | .array [] => ['[', ']']
  | .array (item :: rest) =>
    '[' :: (newLine (depth + 1) ++ renderAt (depth + 1) item ++ renderItemsAt depth rest)
  | .object [] => ['{', '}']
  | .object ((key, value) :: rest) =>
    '{' :: (newLine (depth + 1) ++ renderString key ++ ':' :: ' ' ::
      (renderAt (depth + 1) value ++ renderMembersAt depth rest))
  | .null => render .null
  | .bool b => render (.bool b)
  | .number n => n.render
  | .string text => renderString text

def renderItemsAt (depth : Nat) : List Json → List Char
  | [] => newLine depth ++ [']']
  | item :: rest =>
    ',' :: (newLine (depth + 1) ++ renderAt (depth + 1) item ++ renderItemsAt depth rest)

def renderMembersAt (depth : Nat) : List (String × Json) → List Char
  | [] => newLine depth ++ ['}']
  | (key, value) :: rest =>
    ',' :: (newLine (depth + 1) ++ renderString key ++ ':' :: ' ' ::
      (renderAt (depth + 1) value ++ renderMembersAt depth rest))

end

def renderPretty (value : Json) : List Char := renderAt 0 value

def compact (value : Json) : String := String.ofList value.render

def pretty (value : Json) : String := String.ofList value.renderPretty

/-- A string as it is, any other value as JSON text. -/
def display : Json → String
  | .string text => text
  | value => value.compact

end Json

end SessionLog
