import SessionLog.Binary64.Basic
import SessionLog.Binary64.Fixed
import SessionLog.Binary64.Shortest
import SessionLog.Calendar.Date
import SessionLog.Calendar.DateTime
import SessionLog.Calendar.Moment
import SessionLog.Calendar.Parser
import SessionLog.Calendar.Printer
import SessionLog.Calendar.Zone
import SessionLog.CommandLine
import SessionLog.Event
import SessionLog.FileTree
import SessionLog.Handler
import SessionLog.Journal
import SessionLog.Json.Basic
import SessionLog.Json.Numeral
import SessionLog.Json.Printer
import SessionLog.Json.Raw
import SessionLog.Json.Reader
import SessionLog.Json.Record
import SessionLog.Layout
import SessionLog.LogFilter
import SessionLog.Main
import SessionLog.Path
import SessionLog.Payload
import SessionLog.Proofs.Binary64.Bounds
import SessionLog.Proofs.Calendar.Date
import SessionLog.Proofs.Calendar.DateTime
import SessionLog.Proofs.Calendar.Text
import SessionLog.Proofs.FileTree
import SessionLog.Proofs.Json.Documents
import SessionLog.Proofs.Json.Numbers
import SessionLog.Proofs.Json.Reading
import SessionLog.Proofs.Json.Reals
import SessionLog.Proofs.Json.Strings
import SessionLog.Proofs.Layout
import SessionLog.Proofs.Machine
import SessionLog.Proofs.Persistence
import SessionLog.Proofs.Session.Invariant
import SessionLog.Proofs.Session.Record
import SessionLog.Proofs.Snapshot.Document
import SessionLog.Proofs.Snapshot.File
import SessionLog.Proofs.Snapshot.Shown
import SessionLog.Proofs.StateFile
import SessionLog.Proofs.Text.Digits
import SessionLog.Proofs.Text.Utf8
import SessionLog.Proofs.Tokens.Cost
import SessionLog.Proofs.Tokens.Saturation
import SessionLog.Proofs.Transcript.Accounting
import SessionLog.Proofs.Transcript.Agreement
import SessionLog.Proofs.Transcript.HostTime
import SessionLog.Proofs.Transcript.Increment
import SessionLog.Proofs.Visit
import SessionLog.Session
import SessionLog.Session.Record
import SessionLog.Settings
import SessionLog.Snapshot
import SessionLog.Snapshot.File
import SessionLog.StateFile
import SessionLog.Text.Alphanumeric
import SessionLog.Text.Blank
import SessionLog.Text.Cap
import SessionLog.Text.Digits
import SessionLog.Text.Pattern
import SessionLog.Text.Pattern.Reader
import SessionLog.Text.Split
import SessionLog.Text.Utf8
import SessionLog.Timeline
import SessionLog.Tokens
import SessionLog.Tool
import SessionLog.Transcript.Entry
import SessionLog.Transcript.Octets
import SessionLog.Transcript.Scan
import SessionLog.Transcript.Stamp
import SessionLog.Transition
import SessionLog.Verbosity
import SessionLog.Proofs.Session.Growth
import SessionLog.Proofs.StateFile.Survival
import SessionLog.Proofs.Transcript.Tail
import SessionLog.Proofs.Session.Announcement
import SessionLog.Proofs.Session.Uses
import SessionLog.Proofs.Session.Delegation
import SessionLog.Proofs.Session.Chronology
import SessionLog.Proofs.Idle
import SessionLog.Proofs.Session.Repetition
import SessionLog.Proofs.Footprint
import SessionLog.Proofs.Session.Counting
import SessionLog.Proofs.StateFile.Replacement
import SessionLog.Proofs.Closing
import SessionLog.Proofs.Calendar.Shift
import SessionLog.Proofs.Text.Blank
import SessionLog.Proofs.Text.Split
import SessionLog.Proofs.Transcript.Totals
import SessionLog.Proofs.Transcript.Instants
import SessionLog.Proofs.Json.Nesting
import SessionLog.Proofs.Json.Extent
import SessionLog.Proofs.Text.Utf8.Suffix
import SessionLog.Proofs.Transcript.Cut
import SessionLog.Proofs.Transcript.Noise
import SessionLog.Proofs.Transcript.Newest
import SessionLog.Proofs.Snapshot.Naming
import SessionLog.Proofs.Session.Failures
import SessionLog.Proofs.Transcript.Watermark
import SessionLog.Proofs.Json.Paths
import SessionLog.Proofs.Settings
import SessionLog.Proofs.Binary64.Digits
import SessionLog.Proofs.Json.Width
import SessionLog.Proofs.Tool
import SessionLog.Proofs.Json.Continuation
import SessionLog.Proofs.Json.Members
import SessionLog.Proofs.StateFile.Compatibility
import SessionLog.Proofs.Path
import SessionLog.Proofs.Text.Utf8.Strict
import SessionLog.Proofs.Text.Utf8.Rounds
import SessionLog.Proofs.Transcript.Lines
