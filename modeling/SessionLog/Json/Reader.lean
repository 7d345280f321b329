/-
  SessionLog/Json/Reader.lean
  ===========================
  **JSON text as values.**

  A value is read from its raw form: numerals must be in range, surrogates must
  pair up, arrays and objects may nest 127 deep. Of two members with one key the
  later counts, and the members of an object are put in the order of their keys.
-/
import SessionLog.Json.Numeral

namespace SessionLog

/-! ### Strings -/

namespace Piece

/-- Code units that open and that close a pair. -/
def isHigh (code : Nat) : Bool := 0xD800 ≤ code && code ≤ 0xDBFF
def isLow (code : Nat) : Bool := 0xDC00 ≤ code && code ≤ 0xDFFF

def pair (high low : Nat) : Char :=
  Char.ofNat (0x10000 + (high - 0xD800) * 0x400 + (low - 0xDC00))

/-- The characters that some pieces spell, if every surrogate has its partner. The
    characters seen so far stand last first. -/
def decode (seen : List Char) : List Piece → Option (List Char)
  | [] => some seen.reverse
  | .char c :: rest => decode (c :: seen) rest
  | .unit high :: .unit low :: rest =>
    if isHigh high then
      if isLow low then decode (pair high low :: seen) rest else none
    else if isLow high then none
    else decode (Char.ofNat high :: seen) (.unit low :: rest)
  | .unit code :: rest =>
    if isHigh code || isLow code then none
    else decode (Char.ofNat code :: seen) rest

def string? (pieces : List Piece) : Option String :=
  (decode [] pieces).map String.ofList

end Piece

/-! ### Values -/

namespace Raw

mutual

/-- The value that a raw value stands for, if its brackets nest at most `depth`
    deep. -/
def toJson? (depth : Nat) : Raw → Option Json
  | .null => some .null
  | .bool b => some (.bool b)
  | .number numeral => numeral.toNumber?.map .number
  | .string pieces => (Piece.string? pieces).map .string
  | .array items =>
    match depth with
    | 0 => none
    | depth + 1 => (itemsToJson? depth items).map .array
  | .object members =>
    match depth with
    | 0 => none
    | depth + 1 => (membersToJson? depth members []).map .object

def itemsToJson? (depth : Nat) : List Raw → Option (List Json)
  | [] => some []
  | item :: rest =>
    match toJson? depth item, itemsToJson? depth rest with
    | some item, some rest => some (item :: rest)
    | _, _ => none

/-- Members put one after the other into those seen so far. -/
def membersToJson? (depth : Nat) :
    List (List Piece × Raw) → List (String × Json) → Option (List (String × Json))
  | [], seen => some seen
  | (key, value) :: rest, seen =>
    match Piece.string? key, toJson? depth value with
    | some key, some value => membersToJson? depth rest (insertMember key value seen)
    | _, _ => none

end

end Raw

namespace Json

/-- How deep arrays and objects may nest. -/
def maxDepth : Nat := 127

def parse? (text : List Char) : Option Json :=
  (Raw.parse? text).bind (Raw.toJson? maxDepth)

end Json

end SessionLog
