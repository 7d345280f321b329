/-
  SessionLog/Transcript/Scan.lean
  ===============================
  **Three readings of a transcript.**

  The latest response is the newest text of the assistant. An increment counts the
  entries stamped after a watermark and moves the watermark to the newest of them.
  A recount counts every entry since the start of a session.

  An increment compares stamps as strings and needs none to be a time; a recount
  compares times, and passes over an entry whose stamp is none. An increment takes
  the last model and counts only usage with fresh input; a recount takes the first
  model and counts all usage.
-/
import SessionLog.Calendar.Moment
import SessionLog.Text.Cap
import SessionLog.Transcript.Entry
import SessionLog.Transcript.Stamp

namespace SessionLog.Transcript

/-! ### The latest response -/

def newestText? (content : List Char) : Option String :=
  (entries (Text.trim content)).reverse.findSome? Entry.assistantText?

/-- A text capped at a length, unless the length is zero. -/
def capAt (maxLength : Nat) (text : String) : String :=
  if maxLength = 0 then text else Text.cap maxLength text

def latestResponse? (content : List Char) (maxLength : Nat) : Option String :=
  (newestText? content).map (capAt maxLength)

/-! ### Counts -/

/-- Tokens of some entries, and the context of the last of them. -/
structure Counts where
  tokens : Tokens
  contextTokens : UInt64
deriving DecidableEq, Repr

namespace Counts

def zero : Counts := ⟨.zero, 0⟩

def add (counts : Counts) (usage : Option Usage) : Counts :=
  match usage with
  | none => counts
  | some usage => ⟨counts.tokens.add usage.tokens, usage.contextTokens⟩

end Counts

/-! ### What is new since a watermark -/

/-- What the entries after a watermark add up to. -/
structure Increment where
  counts : Counts
  /-- The last model. -/
  model : Option String
  watermark : String
deriving DecidableEq, Repr

namespace Increment

def start (watermark : String) : Increment := ⟨.zero, none, watermark⟩

/-- The usage of an entry, if it has fresh input. -/
def counted? (entry : Entry) : Option Usage :=
  entry.usage?.filter fun usage => 0 < usage.tokens.input

def step (sum : Increment) (entry : Entry) : Increment where
  counts := sum.counts.add (counted? entry)
  model := entry.model?.or sum.model
  watermark := if sum.watermark < entry.stampText then entry.stampText else sum.watermark

end Increment

/-- The entry has a stamp, and one after the watermark if there is a watermark. -/
def isNew (watermark : String) (entry : Entry) : Bool :=
  entry.stampText ≠ "" && (watermark = "" || watermark < entry.stampText)

def increment (content : List Char) (watermark : String) : Increment :=
  ((entries content).filter (isNew watermark)).foldl Increment.step (.start watermark)

/-! ### All since a start -/

/-- What the entries of a session add up to. -/
structure Recount where
  counts : Counts
  /-- The first model. -/
  model : Option String
deriving DecidableEq, Repr

namespace Recount

def start : Recount := ⟨.zero, none⟩

def step (sum : Recount) (entry : Entry) : Recount where
  counts := sum.counts.add entry.usage?
  model := sum.model.or entry.model?

end Recount

/-- The entry is not from before the start, given on the local clock and in UTC. An
    entry without a stamp counts; one whose stamp is no time does not. -/
def isSince (start startUtc : DateTime) (entry : Entry) : Bool :=
  if entry.stampText = "" then true
  else
    match Stamp.parse? entry.stampText.toList with
    | none => false
    | some (.zoned utc) => !decide (utc.Before startUtc)
    | some (.plain localTime) => !decide (localTime.Before start)

def startUtc? (start : DateTime) (offset : Offset) : Option DateTime :=
  start.addSeconds? (-offset.seconds)

def recount? (content : List Char) (start : DateTime) (offset : Offset) : Option Recount :=
  (startUtc? start offset).map fun startUtc =>
    ((entries content).filter (isSince start startUtc)).foldl Recount.step .start

end SessionLog.Transcript
