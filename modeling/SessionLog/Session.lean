/-
  SessionLog/Session.lean
  =======================
  **A session: what is known between two events.**

  A session belongs to a transcript and has a start. It collects a timeline, the
  names of modified files, failures and token counts, and may have two markers
  open: a tool that was announced and has not been used yet, and a subagent that
  was sent off and has not come back.
-/
import SessionLog.Calendar.DateTime
import SessionLog.Timeline
import SessionLog.Tokens

namespace SessionLog

/-- A tool that was announced: when, and one line about its input. -/
structure PendingTool where
  time : DateTime
  name : String
  input : String
deriving DecidableEq, Repr

structure PendingSubagent where
  kind : String
  since : DateTime
deriving DecidableEq, Repr

structure Session where
  version : UInt32
  start : DateTime
  id : String
  transcriptPath : String
  projectRoot : String
  timeline : List TimelineEntry
  pendingTool : Option PendingTool
  pendingSubagent : Option PendingSubagent
  filesModified : List String
  errorCount : UInt64
  tokens : Tokens
  /-- The tokens in the context of the latest answer. -/
  contextTokens : UInt64
  model : Option String
  /-- The stamp up to which the transcript has been counted. -/
  watermark : String
deriving DecidableEq, Repr

namespace Session

/-- The version of the records that are written and understood. -/
def currentVersion : UInt32 := 1

def fresh (start : DateTime) (id transcriptPath projectRoot watermark : String) : Session where
  version := currentVersion
  start := start
  id := id
  transcriptPath := transcriptPath
  projectRoot := projectRoot
  timeline := []
  pendingTool := none
  pendingSubagent := none
  filesModified := []
  errorCount := 0
  tokens := .zero
  contextTokens := 0
  model := none
  watermark := watermark

def record (s : Session) (entry : TimelineEntry) : Session :=
  { s with timeline := s.timeline ++ [entry] }

/-- A list of names with one more at its end, unless the name is empty or in the
    list. -/
def withName (names : List String) (name : String) : List String :=
  if name = "" ∨ name ∈ names then names else names ++ [name]

def recordFile (s : Session) (name : String) : Session :=
  { s with filesModified := withName s.filesModified name }

end Session

end SessionLog
