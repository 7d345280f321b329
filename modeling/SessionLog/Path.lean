/-
  SessionLog/Path.lean
  ====================
  **Paths as text.**

  A path is cut into names at its slashes. An empty piece and a piece `.` name
  nothing, so doubled and trailing slashes and `.` parts do not count. A path that
  starts with a slash is absolute. Two dots are a part like any other here; what
  they lead to is a matter of the directory that they are looked up in.

  The directories above a path are written with the same slashes and dots as the
  path itself, since the length of a path counts when it is followed.
-/
import SessionLog.Text.Split

namespace SessionLog.Path

/-! ### Names -/

def names (path : List Char) : List (List Char) :=
  (Text.split '/' path).filter fun piece => piece ≠ [] ∧ piece ≠ ['.']

def isAbsolute (path : List Char) : Bool := path.head? == some '/'

/-- The last name, unless it is two dots. -/
def baseName? (path : List Char) : Option (List Char) :=
  match (names path).getLast? with
  | none => none
  | some name => if name = ['.', '.'] then none else some name

def baseName (path : String) : String :=
  match baseName? path.toList with
  | none => ""
  | some name => String.ofList name

/-- A name without what follows its last dot. A dot in front alone is kept. -/
def stem (name : List Char) : List Char :=
  match (name.reverse.dropWhile (· ≠ '.')).tail.reverse with
  | [] => name
  | front => front

/-! ### Joining -/

/-- A path below a directory. An absolute path stays what it is. -/
def join (directory path : String) : String :=
  if isAbsolute path.toList ∨ directory = "" then path
  else if directory.toList.getLast? = some '/' then directory ++ path
  else directory ++ "/" ++ path

def ofNames (absolute : Bool) (names : List (List Char)) : String :=
  String.ofList ((if absolute then ['/'] else []) ++ ['/'].intercalate names)

/-! ### Going up -/

/-- A piece that is no part of the path behind the pieces in front of it: an empty one,
    or a dot that does not begin the path. -/
def isVoid (piece : List Char) (front : List (List Char)) : Bool :=
  piece = [] || (piece = ['.'] && front ≠ [])

/-- Some pieces, last one first, from the last one that is a part. -/
def dropVoid : List (List Char) → List (List Char)
  | [] => []
  | piece :: front => if isVoid piece front then dropVoid front else piece :: front

def ofPieces (absolute : Bool) (pieces : List (List Char)) : String :=
  if absolute ∧ pieces = [] then "/" else String.ofList (['/'].intercalate pieces.reverse)

/-- The paths in front of each part among some pieces, last one first. -/
def fronts (absolute : Bool) : List (List Char) → List String
  | [] => []
  | piece :: front =>
    if isVoid piece front then fronts absolute front
    else ofPieces absolute (dropVoid front) :: fronts absolute front

/-- The directories above a path, the nearest first, each written as in the path. The
    empty path stands for the directory that relative paths start from; it has none
    above it, and neither has the root. -/
def ancestors (path : String) : List String :=
  fronts (isAbsolute path.toList) (Text.split '/' path.toList).reverse

def parent? (path : String) : Option String :=
  match dropVoid (Text.split '/' path.toList).reverse with
  | [] => none
  | _ :: front => some (ofPieces (isAbsolute path.toList) (dropVoid front))

end SessionLog.Path
