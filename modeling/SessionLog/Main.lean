/-
  SessionLog/Main.lean
  ====================
  **The program.**

  The files that a run may look at are read into a tree, the run is made on the
  tree, and what it has changed is written. A file is written beside its place and
  then moved there, so that nobody reads half of one.
-/
import SessionLog.CommandLine
import Std.Time.Zoned

namespace SessionLog.Program

/-! ### Reading -/

def octets? (path : String) : IO (Option (List UInt8)) := do
  try
    let bytes ← IO.FS.readBinFile path
    return some bytes.toList
  catch _ => return none

def node? (path : String) : IO (Option Node) := do
  if ← ((← IO.currentDir) / path).isDir then return some .directory
  else return (← octets? path).map .file

def look (tree : FileTree) (path : String) : IO FileTree := do
  match tree.locate path with
  | .error _ => return tree
  | .ok place =>
    match ← node? path with
    | none => return tree
    | some node => return tree.put place node

/-- Adds what lies at some paths and on the way to them. -/
def lookAll (tree : FileTree) (paths : List String) : IO FileTree :=
  let paths := paths.filter fun path => !FileTree.isUnfit path
  (paths.flatMap fun path => (path :: Path.ancestors path).reverse).foldlM look tree

/-- The tree of the working directory, with nothing in it yet. -/
def start : IO FileTree := do
  let names := Path.names (← IO.currentDir).toString.toList
  let places := (List.range (names.length + 1)).map fun n => Location.ofNames (names.take n)
  return ⟨.ofNames names, places.map fun place => (place, .directory), []⟩

/-! ### Writing -/

/-- Writes a file beside its place and moves it there. -/
def replaceFile (path : String) (octets : List UInt8) : IO Unit := do
  let beside := path ++ ".tmp"
  IO.FS.writeBinFile beside ⟨octets.toArray⟩
  try
    IO.FS.rename beside path
  catch error =>
    IO.FS.removeFile beside
    throw error

/-- Writes what differs between two trees, the oldest changes first. -/
def save (before after : FileTree) : IO Unit :=
  after.nodes.reverse.forM fun (place, node) =>
    if before.node? place = some node then pure ()
    else
      match node with
      | .directory => IO.FS.createDirAll place.path
      | .file octets => replaceFile place.path octets

/-! ### The run -/

/-- The offset of the local clock at a time in UTC: that of the zone in the variable
    `TZ` if it can be read, else what the system says. -/
def localOffset (utc : DateTime) : IO Offset := do
  match (← IO.getEnv "TZ").bind Zone.parse? with
  | some zone => return zone.offsetAt utc
  | none =>
    let now ← Std.Time.DateTime.now
    return (Offset.of? now.timezone.offset.second.val).getD .utc

def now : IO Moment := do
  let nanos := (← Std.Time.Timestamp.now).toNanosecondsSinceUnixEpoch.val
  let micros := (nanos % 1000000000).toNat / 1000
  match DateTime.ofUnix? (nanos / 1000000000) micros with
  | none => throw (IO.userError "the clock is out of the calendar")
  | some utc =>
    match Moment.ofUtc? utc (← localOffset utc) with
    | some moment => return moment
    | none => throw (IO.userError "the clock is out of the calendar")

def environment : IO Environment := do
  let performance ← IO.getEnv "HOOK_PERF"
  let debugging ← IO.getEnv "LIGHTLOG_DEBUG_LOG"
  let filter ← IO.getEnv "LIGHTLOG_LOG"
  return { performance, debugging, filter }

/-- The tree that a payload is handled in. -/
def treeFor (input : List UInt8) (now : Moment) : IO FileTree := do
  let tree ← start
  let working := tree.workingPath
  match (Utf8.decode? input).map Payload.parse with
  | some (.ok payload) =>
    let layout := Layout.resolve payload.directory working
    let tree ← lookAll tree (Run.payloadPaths layout payload)
    lookAll tree (Run.sessionPaths tree layout now payload)
  | _ => lookAll tree [(Layout.resolve none working).errorLog]

def execute (arguments : List String) : IO UInt32 := do
  let begun ← IO.monoNanosNow
  let handles := Command.ofArguments arguments = .handle
  let input ← if handles then (← IO.getStdin).readBinToEnd else pure .empty
  let now ← now
  let tree ← if handles then treeFor input.toList now else start
  let elapsed := ((← IO.monoNanosNow) - begun) / 1000
  let report := run ⟨← environment, tree, now, elapsed⟩ arguments input.toList
  try
    save tree report.tree
  catch error => IO.eprintln s!"{error}"
  (← IO.getStdout).putStr report.output
  (← IO.getStderr).putStr report.errorOutput
  return report.exitCode

end SessionLog.Program

def main (arguments : List String) : IO UInt32 := SessionLog.Program.execute arguments
