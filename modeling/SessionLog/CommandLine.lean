/-
  SessionLog/CommandLine.lean
  ===========================
  **One run of the program, from its arguments to its exit code.**

      lightlog-hook handle      handles the payload on standard input
      lightlog-hook schema      prints the schema of snapshots

  A run that handles a payload ends well whatever happens, since the host must not
  be held up. What goes wrong is said on standard error, and errors are added to the
  error log of the project as well. Only a torn log filter ends a run before it says
  or does anything.
-/
import SessionLog.Calendar.Zone
import SessionLog.Handler
import SessionLog.LogFilter

namespace SessionLog

/-! ### Commands -/

inductive Command where
  | handle
  | schema
  | version
  /-- Help on the program, or on one of its commands. -/
  | help (topic : Option String)
  | misuse
deriving DecidableEq, Repr

namespace Command

/-- The arguments that ask for help and for the version. A single dash may stand in
    front of several letters, of which the first counts. -/
def isHelpFlag (argument : String) : Bool := argument.startsWith "-h" || argument = "--help"
def isVersionFlag (argument : String) : Bool :=
  argument.startsWith "-V" || argument = "--version"

/-- A command after its name: it takes no arguments, but tells about itself. Two
    dashes say that there are no more flags. -/
def alone (command : Command) (topic : String) : List String → Command
  | [] => command
  | ["--"] => command
  | argument :: _ => if isHelpFlag argument then .help (some topic) else .misuse

def ofArguments : List String → Command
  | "handle" :: rest => alone .handle "handle" rest
  | "schema" :: rest => alone .schema "schema" rest
  | ["help"] => .help none
  | ["help", topic] =>
    if ["handle", "schema", "help"].contains topic then .help (some topic) else .misuse
  | argument :: _ =>
    if isHelpFlag argument then .help none
    else if isVersionFlag argument then .version
    else .misuse
  | [] => .misuse

end Command

/-! ### Texts -/

def versionText : String := "lightlog-hook 0.1.0\n"

def handleAbout : String := "Handle a hook event (reads JSON from stdin)"
def schemaAbout : String := "Print the snapshot schema as JSON"
def helpAbout : String := "Print this message or the help of the given subcommand(s)"

def usageText : String :=
  "Usage: lightlog-hook <COMMAND>\n\nCommands:\n"
    ++ "  handle  " ++ handleAbout ++ "\n"
    ++ "  schema  " ++ schemaAbout ++ "\n"
    ++ "  help    " ++ helpAbout ++ "\n\n"
    ++ "Options:\n  -h, --help     Print help\n  -V, --version  Print version\n"

def helpText : Option String → String
  | some "handle" =>
    handleAbout ++ "\n\nUsage: lightlog-hook handle\n\nOptions:\n  -h, --help  Print help\n"
  | some "schema" =>
    schemaAbout ++ "\n\nUsage: lightlog-hook schema\n\nOptions:\n  -h, --help  Print help\n"
  | some "help" =>
    helpAbout ++ "\n\nUsage: lightlog-hook help [COMMAND]...\n\nArguments:\n"
      ++ "  [COMMAND]...  Print help for the subcommand(s)\n"
  | _ => "Lightweight session logger for Claude Code hooks\n\n" ++ usageText

/-! ### Runs -/

structure Environment where
  /-- Asks for the performance log if it is not empty. -/
  performance : Option String
  /-- Asks for all of the journal. -/
  debugging : Option String
  /-- Writes the filter of the journal. -/
  filter : Option String
deriving DecidableEq, Repr

structure RunContext where
  environment : Environment
  tree : FileTree
  now : Moment
  /-- The time that a run takes, in microseconds. -/
  elapsed : Nat

structure Report where
  exitCode : UInt32
  output : String
  errorOutput : String
  tree : FileTree

namespace Run

/-! ### Notices -/

def timeText (context : RunContext) : String := String.ofList context.now.localTime.microsText

def lineText (context : RunContext) (notice : Notice) : String :=
  timeText context ++ " " ++ notice.display ++ "\n"

def logFilter? (environment : Environment) : Option LogFilter :=
  LogFilter.ofEnvironment? environment.debugging environment.filter

def shownText (context : RunContext) (filter : LogFilter) (journal : Journal) : String :=
  String.join ((journal.filter filter.shows).map (lineText context))

/-- Adds a text to a file whose directory is made if it is missing. -/
def addTo (tree : FileTree) (path text : String) : FileTree × Except Refusal Unit :=
  match tree.makeDirectories ((Path.parent? path).getD "") with
  | (made, false) => (made, .error .refused)
  | (made, true) => made.append path (Utf8.encode text.toList)

/-- Adds the errors of a journal to the error log. Where that fails it is left at
    that. -/
def logErrors (context : RunContext) (layout : Layout) (tree : FileTree) (journal : Journal) :
    FileTree :=
  match journal.filter fun notice => notice.severity = .error with
  | [] => tree
  | errors => (addTo tree layout.errorLog (String.join (errors.map (lineText context)))).1

def quiet (context : RunContext) : Report := ⟨0, "", "", context.tree⟩

/-- The report of a run that ends at a torn log filter. -/
def broken (context : RunContext) : Report :=
  ⟨101, "", "the log filter cannot be cut inside a character\n", context.tree⟩

def report (context : RunContext) (filter : LogFilter) (layout : Layout) (tree : FileTree)
    (journal : Journal) : Report :=
  ⟨0, "", shownText context filter journal, logErrors context layout tree journal⟩

/-! ### Performance -/

/-- The line of a run in the performance log: when, what and how long. -/
def performanceLine (context : RunContext) (payload : Payload) : String :=
  let thousandths := String.ofList (Text.padded 3 (context.elapsed % 1000))
  timeText context ++ " " ++ payload.eventName.getD "unknown" ++ ": "
    ++ toString (context.elapsed / 1000) ++ "." ++ thousandths ++ "ms\n"

def logPerformance (context : RunContext) (layout : Layout) (settings : Settings)
    (payload : Payload) (tree : FileTree) : FileTree × Journal :=
  if settings.tracksPerformance || context.environment.performance.any (· ≠ "") then
    match addTo tree layout.performanceLog (performanceLine context payload) with
    | (written, .ok ()) => (written, [])
    | (left, .error _) => (left, [.performanceNotRecorded])
  else (tree, [])

/-! ### Payloads -/

/-- The files that a run may look at before it knows the session. -/
def payloadPaths (layout : Layout) (payload : Payload) : List String :=
  [layout.settingsFile, layout.stateFile, layout.schemaFile, layout.errorLog,
    layout.performanceLog, payload.transcript]

/-- The files that belong to the session before an event, or to one that starts with
    it. -/
def sessionPaths (tree : FileTree) (layout : Layout) (now : Moment) (payload : Payload) :
    List String :=
  let prior := (StateFile.read tree layout.stateFile).1
  (prior.map Session.transcriptPath).toList
    ++ (prior.toList ++ [Session.ofPayload payload now]).map (Snapshot.path layout)

def refuse (context : RunContext) (why : String) : Report :=
  match logFilter? context.environment with
  | none => broken context
  | some filter =>
    report context filter (.resolve none context.tree.workingPath) context.tree
      [.payloadRefused why]

def handlePayload (context : RunContext) (payload : Payload) : Report :=
  let layout := Layout.resolve payload.directory context.tree.workingPath
  match Handler.run? context.tree layout context.now payload,
      logFilter? context.environment with
  | none, _ => quiet context
  | some _, none => broken context
  | some outcome, some filter =>
    let stopped := if outcome.finished then [] else [.handlingStopped]
    let settings := Handler.settings context.tree layout
    let (tree, said) := logPerformance context layout settings payload outcome.tree
    report context filter layout tree (outcome.journal ++ stopped ++ said)

/-- Handles what stands on standard input. Blank input is no payload and no error. -/
def handle (context : RunContext) (input : List UInt8) : Report :=
  match Utf8.decode? input with
  | none => refuse context "Failed to read stdin: stream did not contain valid UTF-8"
  | some text =>
    if Text.isAllBlank text then quiet context
    else
      match Payload.parse text with
      | .error error => refuse context error.message
      | .ok payload => handlePayload context payload

end Run

def run (context : RunContext) (arguments : List String) (input : List UInt8) : Report :=
  match Command.ofArguments arguments with
  | .handle => Run.handle context input
  | .schema => ⟨0, String.ofList Schema.text ++ "\n", "", context.tree⟩
  | .version => ⟨0, versionText, "", context.tree⟩
  | .help topic => ⟨0, helpText topic, "", context.tree⟩
  | .misuse => ⟨2, "", usageText, context.tree⟩

end SessionLog
