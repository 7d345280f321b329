/-
  SessionLog/Text/Utf8.lean
  =========================
  **UTF-8 as a machine that takes one octet at a time.**

  Between characters the machine is at `start`. The first octet of a longer
  character leaves it owing continuation octets; the first of those is held to
  the range that rules out overlong forms, surrogates and code points above
  U+10FFFF. An octet either completes a character, or leads on to a state, or
  breaks the sequence that was begun.

  Two readings are built on it. `decode?` refuses a text with a broken sequence
  or an unfinished end. `decodeLenient` drops what is broken: a sequence that
  cannot be continued is forgotten and the octet that broke it is tried as a
  first octet.
-/
namespace SessionLog.Utf8

/-! ### The machine -/

/-- Where the machine stands between octets. -/
inductive State where
  /-- Between characters. -/
  | start
  /-- Inside a character: the next octet lies in `low … high`, `owed` more follow
      it, and `code` holds the bits read so far. -/
  | tail (owed low high code : Nat)
deriving DecidableEq, Repr

/-- What one octet does. -/
inductive Step where
  /-- It completes a character. -/
  | emit (c : Char)
  /-- It leads on. -/
  | more (next : State)
  /-- It cannot stand here. -/
  | broken
deriving DecidableEq, Repr

def first (b : Nat) : Step :=
  if b ≤ 0x7F then .emit (Char.ofNat b)
  else if 0xC2 ≤ b ∧ b ≤ 0xDF then .more (.tail 0 0x80 0xBF (b - 0xC0))
  else if b = 0xE0 then .more (.tail 1 0xA0 0xBF 0)
  else if b = 0xED then .more (.tail 1 0x80 0x9F 0xD)
  else if 0xE1 ≤ b ∧ b ≤ 0xEF then .more (.tail 1 0x80 0xBF (b - 0xE0))
  else if b = 0xF0 then .more (.tail 2 0x90 0xBF 0)
  else if 0xF1 ≤ b ∧ b ≤ 0xF3 then .more (.tail 2 0x80 0xBF (b - 0xF0))
  else if b = 0xF4 then .more (.tail 2 0x80 0x8F 4)
  else .broken

def step : State → Nat → Step
  | .start, b => first b
  | .tail owed low high code, b =>
    if low ≤ b ∧ b ≤ high then
      match owed with
      | 0 => .emit (Char.ofNat (code * 64 + (b - 0x80)))
      | n + 1 => .more (.tail n 0x80 0xBF (code * 64 + (b - 0x80)))
    else .broken

/-! ### Strict reading -/

/-- One octet of a strict reading; the characters read so far stand last first. -/
def accept (seen : Option (State × List Char)) (b : UInt8) : Option (State × List Char) :=
  seen.bind fun (state, text) =>
    match step state b.toNat with
    | .emit c => some (.start, c :: text)
    | .more next => some (next, text)
    | .broken => none

/-- The text that a sequence of octets encodes, if it is UTF-8 throughout. -/
def decode? (octets : List UInt8) : Option (List Char) :=
  match octets.foldl accept (some (.start, [])) with
  | some (.start, text) => some text.reverse
  | _ => none

/-! ### Lenient reading -/

/-- The state after an octet, and the character that it completes. A broken
    sequence is dropped; the octet that broke it starts afresh. -/
def resume (state : State) (b : Nat) : State × Option Char :=
  match step state b with
  | .emit c => (.start, some c)
  | .more next => (next, none)
  | .broken =>
    match first b with
    | .emit c => (.start, some c)
    | .more next => (next, none)
    | .broken => (.start, none)

/-- One octet of a lenient reading; the characters read so far stand last first. -/
def absorb (seen : State × List Char) (b : UInt8) : State × List Char :=
  match resume seen.1 b.toNat with
  | (next, some c) => (next, c :: seen.2)
  | (next, none) => (next, seen.2)

/-- The characters of the well-formed sequences among some octets. -/
def decodeLenient (octets : List UInt8) : List Char :=
  (octets.foldl absorb (.start, [])).2.reverse

/-! ### Writing -/

def encode (text : List Char) : List UInt8 := text.flatMap String.utf8EncodeChar

end SessionLog.Utf8
