/-
  SessionLog/FileTree.lean
  ========================
  **Files and directories.**

  A tree says what lies at each location; a location is the list of names that
  leads to it from the root. A path is text and is followed name by name: every
  name but the last has to lead to a directory, two dots go up, and a name or a
  path that is too long leads nowhere.

  An operation that fails leaves the tree as it was, with two exceptions: the
  directories made on the way to one that cannot be made stay, and so does what a
  write has written before it ends early. What a disk does not take is part of the
  tree, and no operation changes it.
-/
import SessionLog.Path
import SessionLog.Text.Digits

namespace SessionLog

/-- The place that some names lead to from the root. -/
structure Location where
  /-- How many names lead there. Places of different depths are told apart by it
      alone. -/
  depth : Nat
  /-- The names, the last one first. -/
  names : List (List Char)
  depth_eq : depth = names.length
deriving DecidableEq, Repr

inductive Node where
  | directory
  | file (octets : List UInt8)
deriving DecidableEq, Repr

/-- What goes wrong at a place when something is written there. -/
inductive Fault where
  /-- Nothing can be made there, and no file there can be opened or replaced. -/
  | closed
  /-- Of a write only some octets find room. -/
  | full (room : Nat)
  /-- What has been written cannot be flushed. -/
  | unflushed
deriving DecidableEq, Repr

/-- The octets of a write that find room, whatever is wrong. -/
def Fault.taken : Option Fault → List UInt8 → List UInt8
  | some (.full room), octets => octets.take room
  | _, octets => octets

/-- All octets of a write find room. -/
def Fault.takesAll : Option Fault → List UInt8 → Bool
  | some (.full room), octets => octets.length ≤ room
  | _, _ => true

/-- What lies where, and the directory that relative paths start from. The root is
    always there. -/
structure FileTree where
  workingDirectory : Location
  nodes : List (Location × Node)
  faults : List (Location × Fault)
deriving Repr

inductive Refusal where
  /-- A name on the way is not there. -/
  | missing
  /-- Anything else. -/
  | refused
deriving DecidableEq, Repr

namespace Location

def root : Location := ⟨0, [], rfl⟩

def child (place : Location) (name : List Char) : Location :=
  ⟨place.depth + 1, name :: place.names, congrArg (· + 1) place.depth_eq⟩

def ofNames (names : List (List Char)) : Location := names.foldl child root

/-- The directory that a place lies in. The root lies in itself. -/
def parent (place : Location) : Location :=
  ⟨place.depth - 1, place.names.tail, by rw [place.depth_eq, List.length_tail]⟩

/-- Lies at a place or below it. -/
def isWithin (place top : Location) : Bool :=
  place.names.drop (place.depth - top.depth) = top.names

def path (place : Location) : String := Path.ofNames true place.names.reverse

end Location

namespace FileTree

/-! ### What lies where -/

def node? (tree : FileTree) (place : Location) : Option Node :=
  if place = .root then some .directory else tree.nodes.lookup place

/-- Puts something at a location, in the place of what was there. -/
def put (tree : FileTree) (place : Location) (node : Node) : FileTree :=
  { tree with nodes := (place, node) :: tree.nodes.filter fun entry => entry.1 ≠ place }

def erase (tree : FileTree) (place : Location) : FileTree :=
  { tree with nodes := tree.nodes.filter fun entry => entry.1 ≠ place }

theorem lookup_entry (place other : Location) (node : Node) (rest : List (Location × Node)) :
    ((place, node) :: rest).lookup other =
      if other = place then some node else rest.lookup other := by
  by_cases h : other = place
  · simp [h]
  · simp [List.lookup_cons, beq_eq_false_iff_ne.2 h, h]

theorem lookup_without (nodes : List (Location × Node)) (place other : Location) :
    (nodes.filter fun entry => entry.1 ≠ place).lookup other =
      if other = place then none else nodes.lookup other := by
  induction nodes with
  | nil => simp
  | cons entry rest ih =>
    obtain ⟨key, node⟩ := entry
    rw [lookup_entry, List.filter_cons]
    by_cases h : key = place
    · rw [if_neg (by simp [h]), ih, h]
      split <;> rfl
    · rw [if_pos (by simp [h]), lookup_entry, ih]
      by_cases ho : other = key
      · rw [if_pos ho, if_neg (ho ▸ h), if_pos ho]
      · rw [if_neg ho, if_neg ho]

@[simp] theorem node?_put (tree : FileTree) {place : Location} (h : place ≠ .root) (node : Node)
    (other : Location) :
    (tree.put place node).node? other =
      if other = place then some node else tree.node? other := by
  simp only [node?, put, lookup_entry, lookup_without]
  by_cases ho : other = place
  · rw [if_neg (ho ▸ h), if_pos ho, if_pos ho]
  · simp [ho]

@[simp] theorem node?_erase (tree : FileTree) {place : Location} (h : place ≠ .root)
    (other : Location) :
    (tree.erase place).node? other = if other = place then none else tree.node? other := by
  simp only [node?, erase, lookup_without]
  by_cases ho : other = place
  · rw [if_neg (ho ▸ h), if_pos ho, if_pos ho]
  · simp [ho]

def files (tree : FileTree) : List (Location × List UInt8) :=
  tree.nodes.filterMap fun (place, node) =>
    match node with
    | .directory => none
    | .file octets => some (place, octets)

/-! ### Paths -/

/-- How many octets a name and a path may have. -/
def maxName : Nat := 255
def maxPath : Nat := 4095

def nameSize (name : List Char) : Nat := (name.map Char.utf8Size).foldl Nat.add 0

/-- Follows names from a location. What is at its end need not be there. -/
def follow (tree : FileTree) : Location → List (List Char) → Except Refusal Location
  | place, [] => .ok place
  | place, name :: rest =>
    match tree.node? place with
    | none => .error .missing
    | some (.file _) => .error .refused
    | some .directory =>
      if name = [] ∨ name = ['.'] then tree.follow place rest
      else if name = ['.', '.'] then tree.follow place.parent rest
      else if maxName < nameSize name then .error .refused
      else tree.follow (place.child name) rest

/-- The path cannot be followed, whatever there is. -/
def isUnfit (path : String) : Bool :=
  maxPath < path.utf8ByteSize || path.toList.contains (Char.ofNat 0)

def origin (tree : FileTree) (path : String) : Location :=
  if Path.isAbsolute path.toList then .root else tree.workingDirectory

def locate (tree : FileTree) (path : String) : Except Refusal Location :=
  if path = "" then .error .missing
  else if isUnfit path then .error .refused
  else tree.follow (tree.origin path) (Text.split '/' path.toList)

def workingPath (tree : FileTree) : String := tree.workingDirectory.path

def fromRoot (tree : FileTree) (path : String) : String := Path.join tree.workingPath path

def lookup? (tree : FileTree) (path : String) : Option Node :=
  match tree.locate path with
  | .ok place => tree.node? place
  | .error _ => none

def isThere (tree : FileTree) (path : String) : Bool := (tree.lookup? path).isSome

/-! ### Files -/

def read? (tree : FileTree) (path : String) : Option (List UInt8) :=
  match tree.lookup? path with
  | some (.file octets) => some octets
  | _ => none

def fault? (tree : FileTree) (place : Location) : Option Fault := tree.faults.lookup place

/-- The octets of a write that reach a place. -/
def taken (tree : FileTree) (place : Location) (octets : List UInt8) : List UInt8 :=
  Fault.taken (tree.fault? place) octets

def takesAll (tree : FileTree) (place : Location) (octets : List UInt8) : Bool :=
  Fault.takesAll (tree.fault? place) octets

/-- Writes octets to a file behind those that it keeps. A write that ends early leaves
    what it has written. -/
def fill (tree : FileTree) (place : Location) (kept octets : List UInt8) :
    FileTree × Except Refusal Unit :=
  if tree.fault? place = some .closed then (tree, .error .refused)
  else
    (tree.put place (.file (kept ++ tree.taken place octets)),
      if tree.takesAll place octets then .ok () else .error .refused)

/-- Opens the file at a path, which is made if it is not there, keeps what `kept` says of
    what it held, and writes octets behind that. -/
def update (tree : FileTree) (path : String) (kept : List UInt8 → List UInt8)
    (octets : List UInt8) : FileTree × Except Refusal Unit :=
  match tree.locate path with
  | .error refusal => (tree, .error refusal)
  | .ok place =>
    match tree.node? place with
    | some .directory => (tree, .error .refused)
    | some (.file before) => tree.fill place (kept before) octets
    | none => tree.fill place [] octets

/-- Writes a file anew. What it held is gone as soon as it is open. -/
def write (tree : FileTree) (path : String) (octets : List UInt8) :
    FileTree × Except Refusal Unit :=
  tree.update path (fun _ => []) octets

/-- Writes at the end of a file, which is made if it is not there. -/
def append (tree : FileTree) (path : String) (octets : List UInt8) :
    FileTree × Except Refusal Unit :=
  tree.update path id octets

/-- Removes what lies at a path and all that lies below it. -/
def remove (tree : FileTree) (path : String) : Except Refusal FileTree :=
  match tree.locate path with
  | .error refusal => .error refusal
  | .ok place =>
    .ok { tree with nodes := tree.nodes.filter fun entry => !entry.1.isWithin place }

/-! ### Directories -/

/-- Some last pieces of a path name nothing, and one of them is a dot. -/
def endsInDot (rest : List (List Char)) : Bool :=
  rest.contains ['.'] && rest.all fun piece => piece = [] || piece = ['.']

/-- Follows names from a directory and makes the directories that are missing. The dot
    in a directory is there only when the directory is, so a directory that has only
    dots behind it is not made. Tells whether the end is reached. -/
def makeAlong (tree : FileTree) (place : Location) : List (List Char) → FileTree × Bool
  | [] => (tree, true)
  | name :: rest =>
    if name = [] ∨ name = ['.'] then tree.makeAlong place rest
    else if name = ['.', '.'] then tree.makeAlong place.parent rest
    else if maxName < nameSize name then (tree, false)
    else
      let below := place.child name
      match tree.node? below with
      | some .directory => tree.makeAlong below rest
      | some (.file _) => (tree, false)
      | none =>
        if endsInDot rest ∨ tree.fault? below = some .closed then (tree, false)
        else (tree.put below .directory).makeAlong below rest

/-- Makes a directory and all that are missing above it. Tells whether it is there in
    the end. The empty path is the working directory, which needs no making. -/
def makeDirectories (tree : FileTree) (path : String) : FileTree × Bool :=
  if isUnfit path then (tree, false)
  else tree.makeAlong (tree.origin path) (Text.split '/' path.toList)

/-! ### Replacing a file -/

def temporaryName (number : Nat) : String := ".tmp" ++ String.ofList (Text.padded 6 number)

/-- A location in a directory where a temporary file can be made. The file is asked for
    from the root on, so that the working directory counts in the length of its path. -/
def temporary? (tree : FileTree) (directory : String) : Option Location :=
  (List.range (tree.nodes.length + 1)).findSome? fun number =>
    match tree.locate (Path.join (tree.fromRoot directory) (temporaryName number)) with
    | .ok place => if (tree.node? place).isNone then some place else none
    | .error _ => none

/-- Moves the file at a location to a path, in the place of a file that is there. -/
def moveTo (tree : FileTree) (source : Location) (octets : List UInt8) (path : String) :
    Except Refusal FileTree :=
  match tree.locate path with
  | .error refusal => .error refusal
  | .ok place =>
    if tree.fault? place = some .closed then .error .refused
    else
      match tree.node? place with
      | some .directory => .error .refused
      | _ => .ok ((tree.erase source).put place (.file octets))

end FileTree

end SessionLog
