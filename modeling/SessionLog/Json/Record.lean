/-
  SessionLog/Json/Record.lean
  ===========================
  **Records with named fields.**

  A record may be written as an object, by the names of its fields, or as an
  array, by their order. In an array fields may be missing at the end, but none
  may be added. In an object unknown names are passed over; a raw object names
  each known field once at most.

  What a field holds is told by a reader of its own: a field that has to be
  there, one with a value for want of it, and one that may also be null.
-/
import SessionLog.Json.Reader

namespace SessionLog

abbrev Fields (α : Type) := List (String × α)

namespace Fields

variable {α β : Type}

/-- Names the items of an array, unless there are more items than names. -/
def ofItems? (names : List String) (items : List α) : Option (Fields α) :=
  if items.length ≤ names.length then some (names.zip items) else none

/-- The fields of a value written as an object or as an array. -/
def ofJson? (names : List String) : Json → Option (Fields Json)
  | .object members => some members
  | .array items => ofItems? names items
  | _ => none

/-- The known fields among the members of a raw object. Every name is spelled out,
    known or not, and no known one may come again. -/
def ofMembers? (names : List String) : List (List Piece × Raw) → Option (Fields Raw)
  | [] => some []
  | (key, value) :: rest => do
    let key ← Piece.string? key
    let fields ← ofMembers? names rest
    if names.contains key then
      if (fields.lookup key).isSome then none else return (key, value) :: fields
    else return fields

def ofRaw? (names : List String) : Raw → Option (Fields Raw)
  | .object members => ofMembers? names members
  | .array items => ofItems? names items
  | _ => none

def required? (fields : Fields α) (name : String) (read : α → Option β) : Option β :=
  (fields.lookup name).bind read

def withDefault? (fields : Fields α) (name : String) (default : β) (read : α → Option β) :
    Option β :=
  match fields.lookup name with
  | none => some default
  | some value => read value

end Fields

/-! ### Fields that may be null -/

def Json.nullable? {β : Type} (read : Json → Option β) : Json → Option (Option β)
  | .null => some none
  | value => (read value).map some

def Raw.nullable? {β : Type} (read : Raw → Option β) : Raw → Option (Option β)
  | .null => some none
  | value => (read value).map some

def Json.list? {β : Type} (read : Json → Option β) (value : Json) : Option (List β) :=
  value.items?.bind (List.mapM read)

def Json.uint64? (value : Json) : Option UInt64 := value.number?.bind Number.toUInt64?

def Json.int64? (value : Json) : Option Int64 := value.number?.bind Number.toInt64?

def Raw.string? : Raw → Option String
  | .string pieces => Piece.string? pieces
  | _ => none

def Raw.uint64? : Raw → Option UInt64
  | .number numeral => numeral.toNumber?.bind Number.toUInt64?
  | _ => none

end SessionLog
