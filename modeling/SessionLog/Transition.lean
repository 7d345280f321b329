/-
  SessionLog/Transition.lean
  ==========================
  **What an event does to a session.**

      SessionStart       a new session; a startup on the same transcript keeps the
                         timeline
      UserPromptSubmit   a prompt, in a new session if the transcript is another one
      PreToolUse         a recorded tool is announced
      PostToolUse        a recorded tool was used
      SubagentStop       the subagent at work is done
      PermissionRequest  a request
      Stop               the response, and what is new in the transcript
      SessionEnd         the end

  A transition is a function of the session before it, the settings, the time, the
  payload and what lies in the transcript. It says what is to be kept in the state
  file and whether a snapshot is due; nothing is written here.
-/
import SessionLog.Event
import SessionLog.Snapshot.File
import SessionLog.Tool

namespace SessionLog

/-! ### Transitions -/

inductive StateWrite where
  | keep
  | store
  | reset
deriving DecidableEq, Repr

structure Transition where
  session : Option Session
  stateWrite : StateWrite
  /-- The snapshot that is due, by the source of its counts. -/
  snapshot : Option TokenSource
deriving DecidableEq, Repr

namespace Transition

def unchanged (session : Option Session) : Transition := ⟨session, .keep, none⟩

def stored (s : Session) : Transition := ⟨some s, .store, none⟩

def shown (s : Session) : Transition := ⟨some s, .store, some .counted⟩

end Transition

/-! ### Steps of a session -/

namespace Session

def stamp (time : DateTime) : String := String.ofList time.minuteText

def ofPayload (payload : Payload) (now : Moment) : Session :=
  fresh now.localTime (payload.sessionId.getD "") payload.transcript
    (payload.directory.getD "") (String.ofList now.watermark)

/-- The session that starts. At startup the timeline of a session on the same
    transcript goes on. -/
def started (prior : Option Session) (trigger : String) (payload : Payload) (now : Moment) :
    Session :=
  let next := ofPayload payload now
  match prior with
  | some s =>
    if trigger = "startup" ∧ s.transcriptPath = next.transcriptPath then
      { next with timeline := s.timeline }
    else next
  | none => next

def prompted (prior : Option Session) (payload : Payload) (now : Moment) : Session :=
  match prior with
  | some s => if s.transcriptPath = payload.transcript then s else ofPayload payload now
  | none => ofPayload payload now

def announce (s : Session) (tool : String) (input : Json) (time : DateTime) : Session :=
  { s with pendingTool := some ⟨time, tool, (ToolKind.ofName tool).summarizeInput input⟩ }

/-- When a tool was used and on what: as it was announced, if it was. -/
def announced (s : Session) (tool : String) (input : Json) (time : DateTime) :
    DateTime × String :=
  match s.pendingTool with
  | some pending =>
    if pending.name = tool then (pending.time, pending.input)
    else (time, (ToolKind.ofName tool).summarizeInput input)
  | none => (time, (ToolKind.ofName tool).summarizeInput input)

def output? (tool : String) (response : Option Json) : Option String :=
  let text := (ToolKind.ofName tool).summarizeOutput response
  if text = "" then none else some text

def toolEntry (s : Session) (tool : String) (input : Json) (response : Option Json)
    (time : DateTime) : TimelineEntry :=
  let (used, line) := s.announced tool input time
  .tool (stamp used) tool line (output? tool response)

def noteFile (s : Session) (tool : String) (input : Json) : Session :=
  if (ToolKind.ofName tool).modifiesFiles then
    s.recordFile (Path.baseName (textUnder "file_path" input))
  else s

def noteFailure (s : Session) (tool : String) (response : Option Json) : Session :=
  if (ToolKind.ofName tool).isFailure response then
    { s with errorCount := s.errorCount + 1 }
  else s

def noteSubagent (s : Session) (tool : String) (input : Json) (time : DateTime) : Session :=
  if (ToolKind.ofName tool).delegates then
    let kind := ((input.get? "subagent_type").bind Json.string?).getD "unknown"
    { s with pendingSubagent := some ⟨kind, time⟩ }
  else s

/-- A tool was used. No announcement outlives it. -/
def useTool (s : Session) (tool : String) (input : Json) (response : Option Json)
    (time : DateTime) : Session :=
  let recorded := { s.record (s.toolEntry tool input response time) with pendingTool := none }
  ((recorded.noteFile tool input).noteFailure tool response).noteSubagent tool input time

def finishSubagent (s : Session) (pending : PendingSubagent) (time : DateTime) : Session :=
  { s.record (.subagent (stamp time) pending.kind (durationSeconds pending.since time) true)
    with pendingSubagent := none }

def respond (s : Session) (response : Option String) (time : DateTime) : Session :=
  match response with
  | none => s
  | some text => s.record (.response (stamp time) text)

/-- What is new in the transcript is added. The context and the model stay as they
    are if nothing new tells of them. -/
def takeIn (s : Session) (new : Transcript.Increment) : Session :=
  { s with
    tokens := s.tokens.add new.counts.tokens
    contextTokens :=
      if 0 < new.counts.contextTokens then new.counts.contextTokens else s.contextTokens
    model := new.model.or s.model
    watermark := if new.watermark = "" then s.watermark else new.watermark }

def answer (s : Session) (settings : Settings) (transcript : Option (List UInt8))
    (time : DateTime) : Session :=
  (s.respond (Transcript.latestIn? transcript settings.maxResponse) time).takeIn
    (Transcript.incrementIn transcript s.watermark)

end Session

/-! ### Events -/

namespace Transition

def ofEvent (prior : Option Session) (event : Event) (payload : Payload)
    (settings : Settings) (now : Moment) (read : String → Option (List UInt8)) :
    Transition :=
  match event, prior with
  | .sessionStart trigger, _ => stored (.started prior trigger payload now)
  | .userPromptSubmit prompt, _ =>
    shown ((Session.prompted prior payload now).record
      (.prompt (Session.stamp now.localTime) prompt))
  | .preToolUse tool input, some s =>
    if settings.records tool then stored (s.announce tool input now.localTime)
    else unchanged prior
  | .postToolUse tool input response, some s =>
    if settings.records tool then shown (s.useTool tool input response now.localTime)
    else unchanged prior
  | .subagentStop, some s =>
    match s.pendingSubagent with
    | some pending => shown (s.finishSubagent pending now.localTime)
    | none => unchanged prior
  | .permissionRequest tool input, some s =>
    shown (s.record (.permissionRequest (Session.stamp now.localTime) tool
      ((ToolKind.ofName tool).summarizeInput input)))
  | .stop, some s =>
    shown (s.answer settings (Transcript.find? read s.transcriptPath) now.localTime)
  | .sessionEnd, some s =>
    ⟨prior, .reset, some (if s.tokens.hasActivity then .counted else .recounted)⟩
  | .sessionEnd, none => ⟨none, .reset, none⟩
  | _, _ => unchanged prior

/-- What a payload does; one that tells of no event does nothing. -/
def ofPayload (prior : Option Session) (payload : Payload) (settings : Settings)
    (now : Moment) (read : String → Option (List UInt8)) : Transition :=
  match payload.event? with
  | none => unchanged prior
  | some event => ofEvent prior event payload settings now read

end Transition

end SessionLog
