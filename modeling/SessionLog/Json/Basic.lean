/-
  SessionLog/Json/Basic.lean
  ==========================
  **JSON values.**

  A number is an integer or a double: a numeral without point and exponent that
  fits 64 bits, signed or unsigned, is an integer, any other a double. The members
  of an object stand in a list. A document that is built is written in the order
  of that list; a document that is read has each key once and its keys in the
  order of their code points.
-/
import SessionLog.Binary64.Basic

namespace SessionLog

inductive Number where
  | integer (value : Int)
  | real (value : Binary64)
deriving DecidableEq, Repr

inductive Json where
  | null
  | bool (value : Bool)
  | number (value : Number)
  | string (text : String)
  | array (items : List Json)
  | object (members : List (String × Json))
deriving Repr, BEq, Inhabited

/-! ### Numbers -/

namespace Number

/-- The least and the greatest integer of 64 signed bits, and the greatest of 64
    unsigned ones. -/
def minSigned : Int := -0x8000000000000000
def maxSigned : Int := 0x7FFFFFFFFFFFFFFF
def maxUnsigned : Int := 0xFFFFFFFFFFFFFFFF

def toUInt64? : Number → Option UInt64
  | .integer n => if 0 ≤ n ∧ n ≤ maxUnsigned then some (UInt64.ofNat n.toNat) else none
  | .real _ => none

def toInt64? : Number → Option Int64
  | .integer n => if minSigned ≤ n ∧ n ≤ maxSigned then some (Int64.ofInt n) else none
  | .real _ => none

def toReal : Number → Binary64
  | .integer n => .ofInt n
  | .real x => x

end Number

/-! ### Looking into values -/

namespace Json

def ofUInt64 (n : UInt64) : Json := .number (.integer n.toNat)

def ofInt64 (n : Int64) : Json := .number (.integer n.toInt)

def members? : Json → Option (List (String × Json))
  | .object members => some members
  | _ => none

def get? (key : String) (value : Json) : Option Json :=
  value.members?.bind (List.lookup key)

def items? : Json → Option (List Json)
  | .array items => some items
  | _ => none

def string? : Json → Option String
  | .string text => some text
  | _ => none

def bool? : Json → Option Bool
  | .bool b => some b
  | _ => none

def number? : Json → Option Number
  | .number n => some n
  | _ => none

def isNull : Json → Bool
  | .null => true
  | _ => false

/-- Whether a value says yes: neither null, nor false, nor zero, nor empty. -/
def isTruthy : Json → Bool
  | .null => false
  | .bool b => b
  | .number n => !n.toReal.isZero
  | .string text => !text.isEmpty
  | .array items => !items.isEmpty
  | .object members => !members.isEmpty

end Json

/-! ### Members in order of their keys -/

/-- Puts a member into a list sorted by key. A key that is there keeps its place
    and takes the new value. -/
def insertMember (key : String) (value : Json) :
    List (String × Json) → List (String × Json)
  | [] => [(key, value)]
  | (k, v) :: rest =>
    if key < k then (key, value) :: (k, v) :: rest
    else if key = k then (key, value) :: rest
    else (k, v) :: insertMember key value rest

theorem lookup_member (key name : String) (value : Json) (rest : List (String × Json)) :
    ((key, value) :: rest).lookup name =
      if name = key then some value else rest.lookup name := by
  by_cases h : name = key
  · simp [h]
  · simp [List.lookup_cons, beq_eq_false_iff_ne.2 h, h]

/-- What is found under a key after a member has been put in: its value under its own
    key, and what was there under any other. -/
theorem lookup_insertMember (key name : String) (value : Json)
    (members : List (String × Json)) :
    (insertMember key value members).lookup name =
      if name = key then some value else members.lookup name := by
  induction members with
  | nil => simp [insertMember, lookup_member]
  | cons member rest ih =>
    obtain ⟨k, v⟩ := member
    rw [insertMember, lookup_member]
    split
    · rw [lookup_member, lookup_member]
    · split
      · rename_i h
        subst h
        rw [lookup_member]
        split <;> rfl
      · rename_i h
        rw [lookup_member, ih]
        by_cases hk : name = k
        · subst hk; simp [Ne.symm h]
        · simp [hk]

end SessionLog
