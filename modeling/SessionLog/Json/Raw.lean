/-
  SessionLog/Json/Raw.lean
  ========================
  **The grammar of JSON: a text as it is written.**

  A raw value keeps what a text says before anything is made of it: numerals as
  digits, strings with their escapes by code unit, all members of an object in
  order. Reading it takes the grammar alone; whether a numeral is in range,
  whether surrogates pair up, how deep values nest and what a repeated key means
  is settled by those who read a raw value, and a part that nobody reads is held
  to the grammar only.
-/
import SessionLog.Text.Digits

namespace SessionLog

/-! ### Raw values -/

/-- A piece of a string: a character, plain or behind a backslash, or a code unit
    given by four hexadecimal digits. -/
inductive Piece where
  | char (c : Char)
  | unit (code : Nat)
deriving DecidableEq, Repr

/-- A numeral by its digits, most significant first. -/
structure Numeral where
  negative : Bool
  whole : List Nat
  fraction : Option (List Nat)
  /-- Whether the exponent is negative, and its digits. -/
  exponent : Option (Bool × List Nat)
deriving DecidableEq, Repr

inductive Raw where
  | null
  | bool (value : Bool)
  | number (numeral : Numeral)
  | string (pieces : List Piece)
  | array (items : List Raw)
  | object (members : List (List Piece × Raw))
deriving Repr, Inhabited

namespace Raw

/-! ### Tokens -/

def isSpace (c : Char) : Bool := c == ' ' || c == '\n' || c == '\t' || c == '\r'

def skipSpace (text : List Char) : List Char := text.dropWhile isSpace

def hexUnit? (a b c d : Char) : Option Nat := do
  let a ← Text.hexValue? a
  let b ← Text.hexValue? b
  let c ← Text.hexValue? c
  let d ← Text.hexValue? d
  return ((a * 16 + b) * 16 + c) * 16 + d

/-- What a backslash and one letter stand for. -/
def shortEscape? (c : Char) : Option Char :=
  if c = '"' ∨ c = '\\' ∨ c = '/' then some c
  else if c = 'b' then some (Char.ofNat 0x08)
  else if c = 'f' then some (Char.ofNat 0x0C)
  else if c = 'n' then some '\n'
  else if c = 'r' then some '\r'
  else if c = 't' then some '\t'
  else none

/-- A string after its opening quote: its pieces, and what follows the closing
    quote. The pieces seen so far stand last first. -/
def stringBody (seen : List Piece) : List Char → Option (List Piece × List Char)
  | [] => none
  | '"' :: rest => some (seen.reverse, rest)
  | '\\' :: 'u' :: a :: b :: c :: d :: rest =>
    match hexUnit? a b c d with
    | some code => stringBody (.unit code :: seen) rest
    | none => none
  | '\\' :: c :: rest =>
    match shortEscape? c with
    | some c => stringBody (.char c :: seen) rest
    | none => none
  | c :: rest => if c.toNat < 0x20 then none else stringBody (.char c :: seen) rest

def digits (text : List Char) : List Nat × List Char :=
  ((Text.leadingDigits text).map Text.digitValue, text.dropWhile Text.isDigit)

/-- The point and the digits behind it, of which there is one at least. -/
def fraction? : List Char → Option (Option (List Nat) × List Char)
  | '.' :: text =>
    match digits text with
    | ([], _) => none
    | (ds, rest) => some (some ds, rest)
  | text => some (none, text)

def exponentSign : List Char → Bool × List Char
  | '-' :: text => (true, text)
  | '+' :: text => (false, text)
  | text => (false, text)

/-- The exponent, with one digit at least. -/
def exponent? : List Char → Option (Option (Bool × List Nat) × List Char)
  | c :: text =>
    if c = 'e' ∨ c = 'E' then
      let (negative, text) := exponentSign text
      match digits text with
      | ([], _) => none
      | (ds, rest) => some (some (negative, ds), rest)
    else some (none, c :: text)
  | [] => some (none, [])

/-- A numeral after its sign. A leading zero stands alone. -/
def unsignedNumeral? (negative : Bool) (text : List Char) : Option (Numeral × List Char) :=
  match digits text with
  | ([], _) => none
  | (0 :: _ :: _, _) => none
  | (whole, text) => do
    let (fraction, text) ← fraction? text
    let (exponent, text) ← exponent? text
    return (⟨negative, whole, fraction, exponent⟩, text)

def numeral? : List Char → Option (Numeral × List Char)
  | '-' :: text => unsignedNumeral? true text
  | text => unsignedNumeral? false text

/-! ### Values

Each reader takes fuel for the calls that it may nest. A text of `n` characters
needs no more than `2 n + 2`: a call of `value?` on a bracket reads a character
before the next call of its kind, with one call of `items?` or `members?` between
them. -/

mutual

def value? : (fuel : Nat) → List Char → Option (Raw × List Char)
  | 0, _ => none
  | fuel + 1, text =>
    match skipSpace text with
    | 'n' :: 'u' :: 'l' :: 'l' :: rest => some (.null, rest)
    | 't' :: 'r' :: 'u' :: 'e' :: rest => some (.bool true, rest)
    | 'f' :: 'a' :: 'l' :: 's' :: 'e' :: rest => some (.bool false, rest)
    | '"' :: text => do
      let (pieces, rest) ← stringBody [] text
      return (.string pieces, rest)
    | '[' :: text =>
      match skipSpace text with
      | ']' :: rest => some (.array [], rest)
      | _ => do
        let (items, rest) ← items? fuel text
        return (.array items, rest)
    | '{' :: text =>
      match skipSpace text with
      | '}' :: rest => some (.object [], rest)
      | _ => do
        let (members, rest) ← members? fuel text
        return (.object members, rest)
    | text => do
      let (numeral, rest) ← numeral? text
      return (.number numeral, rest)

/-- Items and commas up to the closing bracket. -/
def items? : (fuel : Nat) → List Char → Option (List Raw × List Char)
  | 0, _ => none
  | fuel + 1, text => do
    let (item, text) ← value? fuel text
    match skipSpace text with
    | ']' :: rest => return ([item], rest)
    | ',' :: text =>
      let (items, rest) ← items? fuel text
      return (item :: items, rest)
    | _ => none

/-- Members and commas up to the closing brace. -/
def members? : (fuel : Nat) → List Char → Option (List (List Piece × Raw) × List Char)
  | 0, _ => none
  | fuel + 1, text =>
    match skipSpace text with
    | '"' :: text => do
      let (key, text) ← stringBody [] text
      match skipSpace text with
      | ':' :: text =>
        let (value, text) ← value? fuel text
        match skipSpace text with
        | '}' :: rest => return ([(key, value)], rest)
        | ',' :: text =>
          let (members, rest) ← members? fuel text
          return ((key, value) :: members, rest)
        | _ => none
      | _ => none
    | _ => none

end

/-- A text that is one value, with blanks around it at most. -/
def parse? (text : List Char) : Option Raw :=
  match value? (2 * text.length + 2) text with
  | some (raw, rest) => if rest.all isSpace then some raw else none
  | none => none

end Raw

end SessionLog
