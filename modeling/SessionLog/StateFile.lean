/-
  SessionLog/StateFile.lean
  =========================
  **The file that keeps a session from one event to the next.**

  The file holds the record of the open session, or `{}` when none is open. What
  cannot be read as such a record is the same as no session; a record of another
  version is as well. The file is replaced as a whole: the text goes to a temporary
  file beside it, which then takes its place, or is removed if it cannot or if the
  text could not be written to it.
-/
import SessionLog.FileTree
import SessionLog.Journal
import SessionLog.Session.Record
import SessionLog.Text.Utf8

namespace SessionLog

inductive StateFileError where
  | noParent
  | directory
  | temporary
  | write
  | flush
  | replace (path : String)
deriving DecidableEq, Repr

def StateFileError.message : StateFileError → String
  | .noParent => "I/O error: state file path has no parent directory"
  | .directory => "I/O error: create log directory"
  | .temporary => "I/O error: create temp state file"
  | .write => "I/O error: write temp state file"
  | .flush => "I/O error: flush temp state file"
  | .replace path => "Failed to replace " ++ path

namespace StateFile

/-! ### Reading -/

/-- The session of a JSON value, if it is a record of the current version. The empty
    object says that no session is open. -/
def ofJson (value : Json) : Option Session × Journal :=
  match value with
  | .object [] => (none, [])
  | value =>
    match Session.ofJson? value with
    | none => (none, [.stateUnreadable])
    | some s =>
      if s.version = Session.currentVersion then (some s, [])
      else (none, [.stateUnsupported])

def ofText (text : List Char) : Option Session × Journal :=
  if Text.isAllBlank text then (none, [])
  else
    match Json.parse? text with
    | none => (none, [.stateCorrupt])
    | some value => ofJson value

def read (tree : FileTree) (path : String) : Option Session × Journal :=
  match (tree.read? path).bind Utf8.decode? with
  | none => (none, [])
  | some text => ofText text

/-! ### Replacing -/

/-- Puts a text in a temporary file and that file in the place of the one at the
    path. -/
def swap (tree : FileTree) (place : Location) (path : String) (text : List Char) :
    FileTree × Except StateFileError Unit :=
  let octets := Utf8.encode text
  let written := tree.put place (.file (tree.taken place octets))
  if tree.fault? place = some .closed then (tree, .error .temporary)
  else if tree.takesAll place octets = false then (written.erase place, .error .write)
  else if tree.fault? place = some .unflushed then (written.erase place, .error .flush)
  else
    match written.moveTo place octets path with
    | .ok moved => (moved, .ok ())
    | .error _ => (written.erase place, .error (.replace path))

/-- Replaces the file at a path, whose directory is made if it is missing. -/
def replace (tree : FileTree) (path : String) (text : List Char) :
    FileTree × Except StateFileError Unit :=
  match Path.parent? path with
  | none => (tree, .error .noParent)
  | some parent =>
    match tree.makeDirectories parent with
    | (made, false) => (made, .error .directory)
    | (made, true) =>
      match made.temporary? parent with
      | none => (made, .error .temporary)
      | some place => swap made place path text

/-- The text of the file when no session is open. -/
def closedText : List Char := ['{', '}']

def store (tree : FileTree) (path : String) (s : Session) :
    FileTree × Except StateFileError Unit :=
  replace tree path s.text

def clear (tree : FileTree) (path : String) : FileTree × Except StateFileError Unit :=
  replace tree path closedText

end StateFile

end SessionLog
