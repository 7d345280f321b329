/-
  SessionLog/Text/Pattern.lean
  ============================
  **Search patterns, and which of them can be used.**

  A pattern says what is to be found: letters, sets of letters in square brackets,
  edges of a text, a line or a word, and groups of these, one behind the other, in
  the place of one another, or repeated. On its way a pattern may switch its mode;
  a switch holds up to the end of the group that it stands in, the alternatives
  behind it included.

  Nothing is searched for here. A pattern can be used if

  * no two of its groups have one name,
  * its parts do not stand more than 250 deep in one another, and
  * each part can be had in the mode in which it stands.

  Case and kind are known of ASCII letters alone. So a pattern about characters has
  neither of them, and no edges of words; one about octets has them, but nothing that
  would find a part of a character.
-/
namespace SessionLog.Text

namespace Pattern

/-! ### Modes -/

structure Mode where
  foldsCase : Bool
  /-- The pattern is about characters, else about octets. -/
  hasCharacters : Bool
deriving DecidableEq, Repr

def Mode.initial : Mode := ⟨false, true⟩

/-- A change of mode. What is not set stays as it is. -/
structure Switch where
  foldsCase : Option Bool
  hasCharacters : Option Bool
  /-- Whether blanks and remarks are passed over. It is settled when a pattern is
      read. -/
  isSpaced : Option Bool
deriving DecidableEq, Repr

def Switch.apply (change : Switch) (mode : Mode) : Mode :=
  ⟨change.foldsCase.getD mode.foldsCase, change.hasCharacters.getD mode.hasCharacters⟩

/-! ### Parts of patterns -/

/-- A letter, which may be given as an octet. -/
structure Letter where
  char : Char
  isOctet : Bool
deriving DecidableEq, Repr

namespace Letter

def isAscii (letter : Letter) : Bool := letter.char.toNat < 0x80

def isUsable (mode : Mode) (letter : Letter) : Bool :=
  if mode.hasCharacters then !mode.foldsCase else letter.isAscii || !letter.isOctet

def isMember (mode : Mode) (letter : Letter) : Bool :=
  if mode.hasCharacters then !mode.foldsCase else letter.isAscii

end Letter

inductive Item where
  | letter (letter : Letter)
  | any
  /-- A letter of a kind: a digit, a blank or a letter of a word; or one of no such
      kind. -/
  | kind (negated : Bool)
  /-- The beginning or the end of the text or of a line. -/
  | edge
  /-- The beginning or the end of a word, or a place that is none. -/
  | wordEdge
deriving DecidableEq, Repr

def Item.isUsable (mode : Mode) : Item → Bool
  | .letter a => a.isUsable mode
  | .any => mode.hasCharacters
  | .kind negated => !mode.hasCharacters && !negated
  | .edge => true
  | .wordEdge => !mode.hasCharacters

/-! ### Sets of letters -/

inductive LetterSet where
  | empty
  | letter (letter : Letter)
  | range (low high : Letter)
  /-- A set of ASCII that has a name, or its complement. -/
  | named (negated : Bool)
  | kind (negated : Bool)
  | bracket (negated : Bool) (inner : LetterSet)
  | union (parts : List LetterSet)
  /-- What is left of two sets or more that are cut with one another, or taken from
      one another, from left to right. -/
  | chain (operands : List LetterSet)
deriving Repr

namespace LetterSet

mutual

/-- How deep the parts of a set stand in one another. -/
def depth : LetterSet → Nat
  | .empty | .letter _ | .range _ _ | .named _ | .kind _ => 0
  | .bracket _ inner => inner.depth + 1
  | .union parts => unionDepth 0 parts + 1
  | .chain operands => chainDepth none operands

def unionDepth (front : Nat) : List LetterSet → Nat
  | [] => front
  | part :: rest => unionDepth (max front part.depth) rest

/-- The depth of a chain behind the operands in front, all of which stand together on
    the left of the next one. -/
def chainDepth (front : Option Nat) : List LetterSet → Nat
  | [] => front.getD 0
  | operand :: rest =>
    match front with
    | none => chainDepth (some operand.depth) rest
    | some front => chainDepth (some (max front operand.depth + 1)) rest

end

mutual

/-- The set can be had. A complement of octets would hold parts of characters. -/
def isUsable (mode : Mode) : LetterSet → Bool
  | .empty => true
  | .letter a => a.isMember mode
  | .range low high => low.isMember mode && high.isMember mode
  | .named negated => if mode.hasCharacters then !mode.foldsCase else !negated
  | .kind negated => !mode.hasCharacters && !negated
  | .bracket negated inner => (mode.hasCharacters || !negated) && inner.isUsable mode
  | .union parts => areUsable mode parts
  | .chain operands => areUsable mode operands

def areUsable (mode : Mode) : List LetterSet → Bool
  | [] => true
  | part :: rest => part.isUsable mode && areUsable mode rest

end

end LetterSet

end Pattern

/-! ### Patterns -/

inductive Pattern where
  | empty
  | switch (change : Pattern.Switch)
  | item (item : Pattern.Item)
  | set (letters : Pattern.LetterSet)
  /-- A part with so many signs of repetition behind it. -/
  | repeated (signs : Nat) (part : Pattern)
  /-- A group, which may have a name and a mode of its own. -/
  | group (name : Option (List Char)) (change : Pattern.Switch) (inner : Pattern)
  | sequence (parts : List Pattern)
  | alternatives (branches : List Pattern)
deriving Repr

namespace Pattern

mutual

def depth : Pattern → Nat
  | .empty | .switch _ | .item _ => 0
  | .set letters => letters.depth
  | .repeated signs part => part.depth + signs
  | .group _ _ inner => inner.depth + 1
  | .sequence parts => greatestDepth 0 parts + 1
  | .alternatives branches => greatestDepth 0 branches + 1

def greatestDepth (front : Nat) : List Pattern → Nat
  | [] => front
  | part :: rest => greatestDepth (max front part.depth) rest

end

mutual

/-- The names of the groups, behind those that are known already. -/
def names (known : List (List Char)) : Pattern → List (List Char)
  | .empty | .switch _ | .item _ | .set _ => known
  | .repeated _ part => part.names known
  | .group name _ inner => inner.names (name.toList ++ known)
  | .sequence parts => allNames known parts
  | .alternatives branches => allNames known branches

def allNames (known : List (List Char)) : List Pattern → List (List Char)
  | [] => known
  | part :: rest => allNames (part.names known) rest

end

mutual

/-- The mode behind a pattern, if all of it can be had. -/
def modeBehind? (mode : Mode) : Pattern → Option Mode
  | .empty => some mode
  | .switch change => some (change.apply mode)
  | .item a => if a.isUsable mode then some mode else none
  | .set letters => if letters.isUsable mode then some mode else none
  | .repeated _ part => part.modeBehind? mode
  | .group _ change inner => (inner.modeBehind? (change.apply mode)).map fun _ => mode
  | .sequence parts => modeBehindAll? mode parts
  | .alternatives branches => modeBehindAll? mode branches

def modeBehindAll? (mode : Mode) : List Pattern → Option Mode
  | [] => some mode
  | part :: rest =>
    match part.modeBehind? mode with
    | some mode => modeBehindAll? mode rest
    | none => none

end

def maxDepth : Nat := 250

def isUsable (pattern : Pattern) : Bool :=
  pattern.depth ≤ maxDepth && decide (pattern.names []).Nodup
    && (pattern.modeBehind? .initial).isSome

end Pattern

end SessionLog.Text
