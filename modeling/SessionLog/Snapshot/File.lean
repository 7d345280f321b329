/-
  SessionLog/Snapshot/File.lean
  =============================
  **Snapshots in the log directory.**

  A session has one snapshot, named after its start and its transcript, and every
  writing replaces it. The schema is written beside it once and then left alone. Both
  are written in place, so a write that ends early leaves the front of a text.
-/
import SessionLog.Calendar.Moment
import SessionLog.FileTree
import SessionLog.Layout
import SessionLog.Snapshot
import SessionLog.Transcript.Octets

namespace SessionLog

inductive SnapshotError where
  | directory
  | schema
  | document
deriving DecidableEq, Repr

def SnapshotError.message : SnapshotError → String
  | .directory => "I/O error: create log directory"
  | .schema => "I/O error: write schema file"
  | .document => "I/O error: write snapshot"

inductive TokenSource where
  /-- The session has counted them. -/
  | counted
  /-- The transcript is counted anew since the start of the session. -/
  | recounted
deriving DecidableEq, Repr

/-! ### Counting anew -/

namespace Session

/-- The session with other counts. Its model stays for want of another. -/
def withCounts (s : Session) (sum : Transcript.Recount) : Session :=
  { s with
    tokens := sum.counts.tokens
    contextTokens := sum.counts.contextTokens
    model := sum.model.or s.model }

/-- The session with the counts that a snapshot shows, unless they cannot be had:
    a recount needs the start of the session in UTC. -/
def counts? (s : Session) (source : TokenSource) (read : String → Option (List UInt8))
    (offset : Offset) : Option Session :=
  match source with
  | .counted => some s
  | .recounted =>
    (Transcript.recountIn? (Transcript.find? read s.transcriptPath) s.start offset).map
      s.withCounts

end Session

/-! ### Writing -/

namespace Snapshot

def path (layout : Layout) (s : Session) : String :=
  layout.snapshotFile (String.ofList s.start.date.text)
    (String.ofList s.start.hourMinuteText) (sessionFragment s.transcriptPath)

/-- Writes the schema unless something is in its place. -/
def ensureSchema (tree : FileTree) (layout : Layout) : FileTree × Except SnapshotError Unit :=
  if tree.isThere layout.schemaFile then (tree, .ok ())
  else
    let (left, result) := tree.write layout.schemaFile (Utf8.encode Schema.text)
    (left, result.mapError fun _ => .schema)

def costWarning (settings : Settings) (cost : Binary64) : Journal :=
  match settings.costAlert.level? cost with
  | some .critical => [.costCritical]
  | some .warning => [.costWarning]
  | none => []

/-- Writes the document, with the log directory and the schema before it. -/
def writeDocument (tree : FileTree) (layout : Layout) (path : String) (text : List Char) :
    FileTree × Except SnapshotError Unit :=
  match tree.makeDirectories layout.logDirectory with
  | (made, false) => (made, .error .directory)
  | (made, true) =>
    match ensureSchema made layout with
    | (described, .error error) => (described, .error error)
    | (described, .ok ()) =>
      let (left, result) := described.write path (Utf8.encode text)
      (left, result.mapError fun _ => .document)

def write (tree : FileTree) (layout : Layout) (settings : Settings) (s : Session)
    (now : DateTime) : FileTree × Journal × Except SnapshotError Unit :=
  let snapshot := take s settings now
  let warning := costWarning settings snapshot.cost
  match writeDocument tree layout (path layout s) snapshot.text with
  | (written, .ok ()) => (written, warning ++ [.snapshotWritten], .ok ())
  | (left, .error error) => (left, warning, .error error)

end Snapshot

end SessionLog
