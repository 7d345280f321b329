/-
  SessionLog/Layout.lean
  ======================
  **Where the files of a project's log lie.**

      <root>/.claude/log-lightweight.config.json
      <root>/.claude/logs/lightweight/.state.json
      <root>/.claude/logs/lightweight/_schema.json
      <root>/.claude/logs/lightweight/<date>-<time>-<id>.log
      <root>/.claude/logs/lightweight/errors.log
      <root>/.claude/logs/lightweight/performance.log
-/
import SessionLog.Path

namespace SessionLog

structure Layout where
  root : String
deriving DecidableEq, Repr

namespace Layout

/-- The layout of the project in a directory. Without one, or with an empty one,
    it is the working directory. -/
def resolve (directory : Option String) (workingDirectory : String) : Layout :=
  match directory with
  | none => ⟨workingDirectory⟩
  | some directory => if directory = "" then ⟨workingDirectory⟩ else ⟨directory⟩

def settingsDirectory (layout : Layout) : String := Path.join layout.root ".claude"

def settingsFile (layout : Layout) : String :=
  Path.join layout.settingsDirectory "log-lightweight.config.json"

def logDirectory (layout : Layout) : String :=
  Path.join (Path.join layout.settingsDirectory "logs") "lightweight"

def stateFile (layout : Layout) : String := Path.join layout.logDirectory ".state.json"

def schemaFile (layout : Layout) : String := Path.join layout.logDirectory "_schema.json"

def errorLog (layout : Layout) : String := Path.join layout.logDirectory "errors.log"

def performanceLog (layout : Layout) : String :=
  Path.join layout.logDirectory "performance.log"

def snapshotName (date time fragment : String) : String :=
  date ++ "-" ++ time ++ "-" ++ fragment ++ ".log"

def snapshotFile (layout : Layout) (date time fragment : String) : String :=
  Path.join layout.logDirectory (snapshotName date time fragment)

end Layout

/-- The short name of a session: its transcript's file name up to the first dash,
    without the extension, or `unknown` if nothing is left. -/
def sessionFragment (transcriptPath : String) : String :=
  match Path.baseName? transcriptPath.toList with
  | none => "unknown"
  | some name =>
    match (Path.stem name).takeWhile (· ≠ '-') with
    | [] => "unknown"
    | fragment => String.ofList fragment

end SessionLog
