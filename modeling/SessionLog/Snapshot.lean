/-
  SessionLog/Snapshot.lean
  ========================
  **The document that shows a session to its readers.**

  A snapshot is made of a session, the settings and the time at which it is taken.
  It adds what follows from them: how long the session has lasted, what it has cost
  and how full the context is. The schema says what each field means.
-/
import SessionLog.Binary64.Fixed
import SessionLog.Session.Record
import SessionLog.Settings

namespace SessionLog

/-! ### The context -/

def percentText (x : Binary64) : String := String.ofList (x.toFixed 1 ++ ['%'])

/-- How much of the context is used and how much remains. Without a limit nothing
    is used. -/
def contextShares (tokens : UInt64) (limit : Int64) : String × String :=
  if limit ≤ 0 then ("0%", "100%")
  else
    let size := Binary64.ofInt limit.toInt
    let used := Binary64.ofNat tokens.toNat
    let hundred := Binary64.ofNat 100
    (percentText ((used.div size).mul hundred),
      percentText (((size.sub used).div size).mul hundred))

/-! ### The document -/

structure Snapshot where
  model : Option String
  seconds : Int64
  cost : Binary64
  tokens : Tokens
  contextTokens : UInt64
  contextLimit : Int64
  contextUsed : String
  contextRemaining : String
  filesModified : List String
  errorCount : UInt64
  start : DateTime
  stop : DateTime
  transcriptPath : String
  timeline : List TimelineEntry
deriving DecidableEq, Repr

def durationSeconds (start stop : DateTime) : Int64 :=
  Int64.ofInt (DateTime.secondsBetween start stop)

namespace Snapshot

def take (s : Session) (settings : Settings) (now : DateTime) : Snapshot where
  model := s.model
  seconds := durationSeconds s.start now
  cost := s.tokens.cost
  tokens := s.tokens
  contextTokens := s.contextTokens
  contextLimit := settings.contextLimit
  contextUsed := (contextShares s.contextTokens settings.contextLimit).1
  contextRemaining := (contextShares s.contextTokens settings.contextLimit).2
  filesModified := s.filesModified
  errorCount := s.errorCount
  start := s.start
  stop := now
  transcriptPath := s.transcriptPath
  timeline := s.timeline

def toJson (snapshot : Snapshot) : Json :=
  .object [
    ("model", .ofOption .string snapshot.model),
    ("duration_sec", .ofInt64 snapshot.seconds),
    ("cost_estimate", .number (.real snapshot.cost)),
    ("tokens", snapshot.tokens.toJson),
    ("context_tokens", .ofUInt64 snapshot.contextTokens),
    ("context_limit", .ofInt64 snapshot.contextLimit),
    ("context_used", .string snapshot.contextUsed),
    ("context_remaining", .string snapshot.contextRemaining),
    ("files_modified", .array (snapshot.filesModified.map .string)),
    ("error_count", .ofUInt64 snapshot.errorCount),
    ("start_time", snapshot.start.toJson),
    ("end_time", snapshot.stop.toJson),
    ("transcript_path", .string snapshot.transcriptPath),
    ("timeline", .array (snapshot.timeline.map TimelineEntry.toJson))]

def text (snapshot : Snapshot) : List Char := snapshot.toJson.renderPretty

end Snapshot

/-! ### The schema -/

namespace Schema

def timelineTypes : Json :=
  .object [
    ("permission_request", .string "Permission request (tool/input)"),
    ("prompt", .string "User prompt (content)"),
    ("response", .string "Assistant reply (content, optionally truncated)"),
    ("subagent", .string "Subagent finished (subagent_type/duration_sec/success)"),
    ("tool", .string "Tool use (tool/input/output)")]

def tokenCategories : Json :=
  .object [
    ("cache_creation", .string "Tokens written to cache (1.25x price)"),
    ("cache_read", .string "Tokens read from cache (0.1x price)"),
    ("input", .string "Fresh input tokens (1x price)"),
    ("output", .string "Output tokens")]

def fields : Json :=
  .object [
    ("context_limit", .string "Context window limit (default 200K)"),
    ("context_remaining", .string "Percentage of context remaining"),
    ("context_tokens", .string "Context size of the latest API call (input + cache_read)"),
    ("context_used", .string "Percentage of context used"),
    ("cost_estimate", .string "Estimated cost (USD)"),
    ("duration_sec", .string "Session duration in seconds"),
    ("end_time", .string "Time of this snapshot (local ISO-8601)"),
    ("error_count", .string "Number of failed tool invocations"),
    ("files_modified", .string "Modified file names (from Edit/MultiEdit/Write)"),
    ("model", .string "Model in use"),
    ("start_time", .string "Session start time (local ISO-8601)"),
    ("timeline", .string ("All events in chronological order, each with ts/type and "
      ++ "type-specific data")),
    ("timeline_types", timelineTypes),
    ("tokens", tokenCategories),
    ("transcript_path", .string "Full transcript path, for looking up details")]

def document : Json :=
  .object [
    ("_description", .string "Lightweight log for Claude Code sessions"),
    ("_type", .string "schema"),
    ("fields", fields)]

def text : List Char := document.renderPretty

end Schema

end SessionLog
