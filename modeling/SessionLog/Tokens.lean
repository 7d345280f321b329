/-
  SessionLog/Tokens.lean
  ======================
  **Token counts, and what they cost.**

  Tokens are counted in four categories. Counts have 64 unsigned bits and
  saturate: a sum that does not fit is the greatest count. The cost of some tokens
  is an estimate in dollars, rounded to four places.
-/
import SessionLog.Json.Record

namespace SessionLog

structure Tokens where
  input : UInt64
  output : UInt64
  cacheRead : UInt64
  cacheCreation : UInt64
deriving DecidableEq, Repr

namespace Tokens

/-! ### Counting -/

def zero : Tokens := ⟨0, 0, 0, 0⟩

instance : Inhabited Tokens := ⟨zero⟩

def maxCount : Nat := 0xFFFFFFFFFFFFFFFF

/-- A sum of counts, or the greatest count if it does not fit. -/
def addCount (a b : UInt64) : UInt64 := UInt64.ofNat (min (a.toNat + b.toNat) maxCount)

@[simp, grind =] theorem toNat_addCount (a b : UInt64) :
    (addCount a b).toNat = min (a.toNat + b.toNat) maxCount := by
  have h : min (a.toNat + b.toNat) maxCount < UInt64.size := by
    simp only [maxCount, UInt64.size]; omega
  simp [addCount, Nat.mod_eq_of_lt h]

def add (a b : Tokens) : Tokens :=
  ⟨addCount a.input b.input, addCount a.output b.output,
    addCount a.cacheRead b.cacheRead, addCount a.cacheCreation b.cacheCreation⟩

/-- Something went in or came out. What the cache did is no activity. -/
def hasActivity (tokens : Tokens) : Bool := 0 < tokens.input || 0 < tokens.output

/-! ### Cost -/

/-- Dollars for a million tokens of each category. -/
def inputPrice : Binary64 := .ofNat 3
def outputPrice : Binary64 := .ofNat 15
def cacheReadPrice : Binary64 := .ofRatio 30 100
def cacheCreationPrice : Binary64 := .ofRatio 375 100

def charge (count : UInt64) (price : Binary64) : Binary64 :=
  (Binary64.ofNat count.toNat).mul price

/-- The nearest double with four places, a half going away from zero. -/
def roundCost (x : Binary64) : Binary64 :=
  (x.mul (.ofNat 10000)).round.div (.ofNat 10000)

def cost (tokens : Tokens) : Binary64 :=
  let fresh := (charge tokens.input inputPrice).add (charge tokens.output outputPrice)
  let read := fresh.add (charge tokens.cacheRead cacheReadPrice)
  let all := read.add (charge tokens.cacheCreation cacheCreationPrice)
  roundCost (all.div (.ofNat 1000000))

/-! ### As a record -/

def fieldNames : List String := ["input", "output", "cache_read", "cache_creation"]

def toJson (tokens : Tokens) : Json :=
  .object [
    ("input", .ofUInt64 tokens.input),
    ("output", .ofUInt64 tokens.output),
    ("cache_read", .ofUInt64 tokens.cacheRead),
    ("cache_creation", .ofUInt64 tokens.cacheCreation)]

/-- Reads a record; a missing category counts nothing. -/
def ofJson? (value : Json) : Option Tokens := do
  let fields ← Fields.ofJson? fieldNames value
  let input ← fields.withDefault? "input" 0 Json.uint64?
  let output ← fields.withDefault? "output" 0 Json.uint64?
  let cacheRead ← fields.withDefault? "cache_read" 0 Json.uint64?
  let cacheCreation ← fields.withDefault? "cache_creation" 0 Json.uint64?
  return ⟨input, output, cacheRead, cacheCreation⟩

end Tokens

end SessionLog
