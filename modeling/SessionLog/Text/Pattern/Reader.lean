/-
  SessionLog/Text/Pattern/Reader.lean
  ===================================
  **Search patterns as they are written.**

      a  \n  \x41  .  \d  \b  ^     items
      [a-z[:digit:]&&[^aeiou]]      sets
      (a)  (?<name>a)  (?i-u:a)     groups
      (?x)                          switches
      ab  a|b  a*  a+  a?  a??      sequences, alternatives, repetitions

  In a spaced pattern blanks are passed over, and remarks from `#` to the end of
  the line. Properties of characters cannot be asked for. Numbers of repetitions and
  whatever else takes braces are not read: the patterns here are cut out of texts at
  the first closing brace.
-/
import SessionLog.Text.Alphanumeric
import SessionLog.Text.Blank
import SessionLog.Text.Digits
import SessionLog.Text.Pattern

namespace SessionLog.Text.Pattern

/-! ### Blanks and remarks -/

def skipRemarks : (inRemark : Bool) → List Char → List Char
  | _, [] => []
  | true, c :: rest => skipRemarks (c ≠ '\n') rest
  | false, c :: rest =>
    if c = '#' then skipRemarks true rest
    else if isBlank c then skipRemarks false rest
    else c :: rest

def skip (spaced : Bool) (text : List Char) : List Char :=
  if spaced then skipRemarks false text else text

/-- The character that decides whether a dash in front of the text makes a range. A
    sign `#` is passed over with the blanks around it, but not the remark behind it. -/
def deciding? (spaced : Bool) (text : List Char) : Option Char :=
  if spaced then
    match text.dropWhile isBlank with
    | '#' :: rest => (rest.dropWhile isBlank).head?
    | rest => rest.head?
  else text.head?

/-! ### Items -/

def hexDigits? (spaced : Bool) : (count : Nat) → List Char → Option (List Nat × List Char)
  | 0, text => some ([], text)
  | count + 1, text =>
    match skip spaced text with
    | [] => none
    | c :: rest => do
      let digit ← hexValue? c
      let (digits, rest) ← hexDigits? spaced count rest
      return (digit :: digits, rest)

/-- The character whose code is written in exactly `count` hexadecimal digits. Two of
    them give an octet. -/
def hexLetter? (spaced : Bool) (count : Nat) (text : List Char) :
    Option (Item × List Char) := do
  let (digits, rest) ← hexDigits? spaced count text
  let code := digits.foldl (fun n digit => n * 16 + digit) 0
  if code.isValidChar then return (.letter ⟨Char.ofNat code, count = 2⟩, rest) else none

def plain (c : Char) : Letter := ⟨c, false⟩

def controlLetters : List (Char × Nat) :=
  [('a', 0x07), ('f', 0x0C), ('t', 0x09), ('n', 0x0A), ('r', 0x0D), ('v', 0x0B)]

/-- A character that stands for itself behind a backslash. -/
def isEscapable (c : Char) : Bool :=
  c.toNat < 0x80 && !c.isAlphanum && c ≠ '<' && c ≠ '>'

def escaped? (c : Char) : Option Item :=
  match c with
  | 'd' | 's' | 'w' => some (.kind false)
  | 'D' | 'S' | 'W' => some (.kind true)
  | 'A' | 'z' => some .edge
  | 'b' | 'B' | '<' | '>' => some .wordEdge
  | c =>
    if isEscapable c then some (.letter (plain c))
    else (controlLetters.lookup c).map fun code => .letter (plain (Char.ofNat code))

def escape? (spaced : Bool) : List Char → Option (Item × List Char)
  | [] => none
  | 'x' :: rest => hexLetter? spaced 2 rest
  | 'u' :: rest => hexLetter? spaced 4 rest
  | 'U' :: rest => hexLetter? spaced 8 rest
  | c :: rest => (escaped? c).map fun item => (item, rest)

def item? (spaced : Bool) : List Char → Option (Item × List Char)
  | [] => none
  | '\\' :: rest => escape? spaced rest
  | '.' :: rest => some (.any, rest)
  | '^' :: rest | '$' :: rest => some (.edge, rest)
  | c :: rest => some (.letter (plain c), rest)

/-! ### Sets -/

/-- The names of sets, which stand between `[:` and `:]`. -/
def setNames : List String :=
  ["alnum", "alpha", "ascii", "blank", "cntrl", "digit", "graph", "lower", "print",
    "punct", "space", "upper", "word", "xdigit"]

/-- A set by its name, from behind its first bracket on. -/
def named? : List Char → Option (LetterSet × List Char)
  | ':' :: text =>
    let negated := text.head? == some '^'
    let text := if negated then text.drop 1 else text
    match text.dropWhile (· ≠ ':') with
    | ':' :: ']' :: rest =>
      if setNames.contains (String.ofList (text.takeWhile (· ≠ ':'))) then
        some (.named negated, rest)
      else none
    | _ => none
  | _ => none

def member? (spaced : Bool) : List Char → Option (LetterSet × List Char)
  | [] => none
  | '\\' :: rest => do
    match ← escape? spaced rest with
    | (.letter a, rest) => return (.letter a, rest)
    | (.kind negated, rest) => return (.kind negated, rest)
    | _ => none
  | c :: rest => some (.letter (plain c), rest)

/-- The range between two sets, which have to be letters in order. -/
def between? : LetterSet → LetterSet → Option LetterSet
  | .letter low, .letter high =>
    if low.char ≤ high.char then some (.range low high) else none
  | _, _ => none

/-- A member of a set, or a range of letters. A dash in front of a closing bracket or
    of another dash makes no range. -/
def memberOrRange? (spaced : Bool) (text : List Char) : Option (LetterSet × List Char) := do
  let (low, rest) ← member? spaced text
  match skip spaced rest with
  | '-' :: behind =>
    if [some ']', some '-'].contains (deciding? spaced behind) then
      return (low, '-' :: behind)
    else
      let (high, rest) ← member? spaced (skip spaced behind)
      return (← between? low high, rest)
  | rest => return (low, rest)

/-- The dashes at the front of a set, which stand for themselves. Takes as much fuel as
    there are dashes. -/
def leadingDashes (spaced : Bool) : (fuel : Nat) → List Char → List LetterSet × List Char
  | fuel + 1, '-' :: rest =>
    let (dashes, rest) := leadingDashes spaced fuel (skip spaced rest)
    (.letter (plain '-') :: dashes, rest)
  | _, text => ([], text)

/-- The opening of a set behind its bracket: whether the complement is meant, and the
    dashes or the closing bracket at its front, which stand for themselves. Takes as much
    fuel as the text has characters. -/
def opening (spaced : Bool) (fuel : Nat) (text : List Char) :
    Bool × List LetterSet × List Char :=
  let text := skip spaced text
  let negated := text.head? == some '^'
  match if negated then skip spaced (text.drop 1) else text with
  | ']' :: rest => (negated, [.letter (plain ']')], rest)
  | text => (negated, leadingDashes spaced fuel text)

def unionOf : List LetterSet → LetterSet
  | [] => .empty
  | [part] => part
  | parts => .union parts

def chainOf : List LetterSet → LetterSet
  | [operand] => operand
  | operands => .chain operands

/-- Reads on in a set, up to its closing bracket. `operands` are those in front of the
    one that is being read, `parts` what this one has so far, both last one first; so
    many `levels` of sets may be opened. Takes more fuel than the text has
    characters. -/
def readSet? (spaced : Bool) : (fuel levels : Nat) → (operands parts : List LetterSet) →
    List Char → Option (LetterSet × List Char)
  | 0, _, _, _, _ => none
  | fuel + 1, levels, operands, parts, text =>
    match skip spaced text with
    | [] => none
    | ']' :: rest => some (chainOf (unionOf parts.reverse :: operands).reverse, rest)
    | '[' :: rest =>
      match named? rest, levels with
      | some (letters, rest), _ => readSet? spaced fuel levels operands (letters :: parts) rest
      | none, 0 => none
      | none, levels + 1 =>
        let (negated, front, rest) := opening spaced fuel rest
        match readSet? spaced fuel levels [] front.reverse rest with
        | some (inner, rest) =>
          readSet? spaced fuel (levels + 1) operands (.bracket negated inner :: parts) rest
        | none => none
    | '&' :: '&' :: rest | '-' :: '-' :: rest | '~' :: '~' :: rest =>
      readSet? spaced fuel levels (unionOf parts.reverse :: operands) [] rest
    | text =>
      match memberOrRange? spaced text with
      | some (part, rest) => readSet? spaced fuel levels operands (part :: parts) rest
      | none => none

/-- A set, from behind its opening bracket on. Takes more fuel than the text has
    characters. -/
def set? (spaced : Bool) (fuel : Nat) (text : List Char) : Option (LetterSet × List Char) :=
  let (negated, front, rest) := opening spaced fuel text
  (readSet? spaced fuel maxDepth [] front.reverse rest).map fun (inner, rest) =>
    (.bracket negated inner, rest)

/-! ### Groups -/

def isNameChar (c : Char) : Bool := isAlphanumeric c || ['_', '.', '[', ']'].contains c

/-- The name of a group, and the text behind its closing bracket. -/
def name? (text : List Char) : Option (List Char × List Char) :=
  match text.takeWhile (· ≠ '>'), text.dropWhile (· ≠ '>') with
  | first :: name, _ :: rest =>
    if (isLetter first || first = '_') && name.all isNameChar then some (first :: name, rest)
    else none
  | _, _ => none

/-- Flags, each at most once; a dash in front of some of them turns these off. -/
def areFlags (flags : List Char) : Bool :=
  decide flags.Nodup && flags.all (['i', 'm', 's', 'U', 'u', 'R', 'x', '-'].contains ·)
    && flags.getLast? ≠ some '-'

/-- What some flags say about one of them. -/
def setting (flags : List Char) (flag : Char) : Option Bool :=
  if flags.contains flag then some ((flags.takeWhile (· ≠ '-')).contains flag) else none

def switchOf (flags : List Char) : Switch :=
  ⟨setting flags 'i', setting flags 'u', setting flags 'x'⟩

/-- What an opening round bracket begins. -/
inductive Opening where
  /-- Flags in brackets of their own. -/
  | switch (change : Switch)
  | group (name : Option (List Char)) (change : Switch)
deriving DecidableEq, Repr

/-- Flags behind a question mark, with what closes them. -/
def flagged? (text : List Char) : Option (Opening × List Char) :=
  let isFlag := fun c => c ≠ ':' ∧ c ≠ ')'
  let flags := text.takeWhile isFlag
  if areFlags flags then
    match text.dropWhile isFlag with
    | ':' :: rest => some (.group none (switchOf flags), rest)
    | _ :: rest => if flags = [] then none else some (.switch (switchOf flags), rest)
    | [] => none
  else none

/-- What begins behind an opening bracket. Looking ahead or behind is not possible. -/
def opening? : List Char → Option (Opening × List Char)
  | '?' :: '<' :: '=' :: _ | '?' :: '<' :: '!' :: _ => none
  | '?' :: 'P' :: '<' :: text | '?' :: '<' :: text =>
    (name? text).map fun (name, rest) => (.group (some name) (switchOf []), rest)
  | '?' :: text => flagged? text
  | text => some (.group none (switchOf []), text)

/-! ### Patterns -/

def sequenceOf : List Pattern → Pattern
  | [] => .empty
  | [part] => part
  | parts => .sequence parts

def alternativesOf : List Pattern → Pattern
  | [branch] => branch
  | branches => .alternatives branches

/-- Puts a sign of repetition behind the last of some parts, given last one first. A
    switch cannot be repeated. -/
def repeatLast? : List Pattern → Option (List Pattern)
  | [] => none
  | .switch _ :: _ => none
  | .repeated signs part :: rest => some (.repeated (signs + 1) part :: rest)
  | part :: rest => some (.repeated 1 part :: rest)

/-- The text behind a sign of repetition, which may have a question mark of its own. -/
def afterSign (text : List Char) : List Char :=
  if text.head? = some '?' then text.drop 1 else text

/-- Reads on in a group, up to its closing bracket or the end of the text, neither of
    which is read. `branches` are those in front of the one that is being read, `parts`
    what this one has so far, both last one first; so many `levels` of groups may be
    opened. Takes more fuel than the text has characters. -/
def readGroup? : (fuel levels : Nat) → (spaced : Bool) → (branches parts : List Pattern) →
    List Char → Option (Pattern × List Char)
  | 0, _, _, _, _, _ => none
  | fuel + 1, levels, spaced, branches, parts, text =>
    match skip spaced text with
    | [] => some (alternativesOf (sequenceOf parts.reverse :: branches).reverse, [])
    | ')' :: rest =>
      some (alternativesOf (sequenceOf parts.reverse :: branches).reverse, ')' :: rest)
    | '|' :: rest =>
      readGroup? fuel levels spaced (sequenceOf parts.reverse :: branches) [] rest
    | '(' :: rest =>
      match opening? (skip spaced rest), levels with
      | some (.switch change, rest), _ =>
        readGroup? fuel levels (change.isSpaced.getD spaced) branches (.switch change :: parts)
          rest
      | some (.group name change, rest), levels + 1 =>
        match readGroup? fuel levels (change.isSpaced.getD spaced) [] [] rest with
        | some (inner, ')' :: rest) =>
          readGroup? fuel (levels + 1) spaced branches (.group name change inner :: parts) rest
        | _ => none
      | _, _ => none
    | '*' :: rest | '+' :: rest | '?' :: rest =>
      match repeatLast? parts with
      | some parts => readGroup? fuel levels spaced branches parts (afterSign rest)
      | none => none
    | '{' :: _ => none
    | '[' :: rest =>
      match set? spaced fuel rest with
      | some (letters, rest) =>
        readGroup? fuel levels spaced branches (.set letters :: parts) rest
      | none => none
    | text =>
      match item? spaced text with
      | some (part, rest) => readGroup? fuel levels spaced branches (.item part :: parts) rest
      | none => none

def parse? (text : List Char) : Option Pattern :=
  match readGroup? (text.length + 1) maxDepth false [] [] text with
  | some (pattern, []) => some pattern
  | _ => none

def isPattern (text : List Char) : Bool := (parse? text).any isUsable

end SessionLog.Text.Pattern
