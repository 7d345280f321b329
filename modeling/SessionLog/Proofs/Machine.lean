/-
  SessionLog/Proofs/Machine.lean
  ==============================
  **Sessions as a machine in memory, driven by events.**

  The state of the machine is the open session, or none. An event comes with all that
  its handling depends on: the payload, the settings, the time and what can be read of
  transcripts. Its transition is a function of these, and what it says about the state
  file says which session is open next.

  What an event can do is listed once, by `Occurrence.Makes`; every property of runs is
  read off that list, or off `Session.Step` for the events that stay in a session.
-/
import SessionLog.Transition

namespace SessionLog

/-! ### The machine -/

structure Occurrence where
  payload : Payload
  settings : Settings
  now : Moment
  /-- What can be read at a path. -/
  read : String → Option (List UInt8)

def Occurrence.transition (o : Occurrence) (prior : Option Session) : Transition :=
  .ofPayload prior o.payload o.settings o.now o.read

/-- The session that is open after a transition: a session that is stored takes the
    place of the one before, a reset leaves none. -/
def Transition.left (prior : Option Session) (transition : Transition) : Option Session :=
  match transition.stateWrite with
  | .keep => prior
  | .store => transition.session
  | .reset => none

/-! ### Plain occurrences

A payload that names its event and nothing else, or a tool as well, at the start of 1970 in
UTC. -/

def Payload.named (name : String) : Payload :=
  ⟨some name, none, none, none, none, none, none, none, none, none⟩

def DateTime.epoch : DateTime := ⟨⟨1970, 1, 1, by decide⟩, ⟨0, 0, by decide, by decide⟩⟩

def Moment.epoch : Moment := ⟨.epoch, .utc, by decide, by decide⟩

/-- In the second minute of 1970. -/
def Moment.secondMinute : Moment :=
  ⟨⟨DateTime.epoch.date, ⟨90, 500000000, by decide, by decide⟩⟩, .utc, by decide, by decide⟩

/-- An event of a name, with the same to be read at every path. -/
def Occurrence.named (name : String) (found : Option (List UInt8)) : Occurrence :=
  ⟨.named name, .default, .epoch, fun _ => found⟩

/-- An event about a tool, with nothing to be read. -/
def Occurrence.ofTool (name tool : String) (input response : Option Json) : Occurrence :=
  { Occurrence.named name none with
    payload := { Payload.named name with
      toolName := some tool
      toolInput := input
      toolResponse := response } }

namespace Session

/-- The session that is open after one event. -/
def next (prior : Option Session) (o : Occurrence) : Option Session :=
  (o.transition prior).left prior

def after (prior : Option Session) (run : List Occurrence) : Option Session :=
  run.foldl next prior

@[simp] theorem after_cons (prior : Option Session) (o : Occurrence) (run : List Occurrence) :
    after prior (o :: run) = after (next prior o) run := by
  rw [after, List.foldl_cons, after]

@[simp] theorem after_concat (prior : Option Session) (run : List Occurrence) (o : Occurrence) :
    after prior (run ++ [o]) = next (after prior run) o := by
  rw [after, List.foldl_append, after]
  rfl

/-- The events of a run, each with the session that it finds open. -/
def history (prior : Option Session) : List Occurrence → List (Option Session × Occurrence)
  | [] => []
  | o :: run => (prior, o) :: history (next prior o) run

@[simp] theorem history_concat (prior : Option Session) (run : List Occurrence) (o : Occurrence) :
    history prior (run ++ [o]) = history prior run ++ [(after prior run, o)] := by
  induction run generalizing prior with
  | nil => rfl
  | cons first run ih =>
    rw [List.cons_append, history, ih, history, after_cons]
    rfl

end Session

/-! ### Changes of a session, field by field -/

namespace Session

theorem started_cases (prior : Option Session) (trigger : String) (payload : Payload)
    (now : Moment) :
    started prior trigger payload now = ofPayload payload now ∨
      ∃ s ∈ prior, started prior trigger payload now =
        { ofPayload payload now with timeline := s.timeline } := by
  cases prior with
  | none => exact Or.inl rfl
  | some s =>
    by_cases h : trigger = "startup" ∧ s.transcriptPath = (ofPayload payload now).transcriptPath
    · exact Or.inr ⟨s, rfl, if_pos h⟩
    · exact Or.inl (if_neg h)

theorem started_eq (prior : Option Session) (trigger : String) (payload : Payload) (now : Moment) :
    ∃ timeline, started prior trigger payload now =
      { ofPayload payload now with timeline := timeline } := by
  rcases started_cases prior trigger payload now with h | ⟨s, -, h⟩
  · exact ⟨[], h⟩
  · exact ⟨s.timeline, h⟩

theorem prompted_cases (prior : Option Session) (payload : Payload) (now : Moment) :
    prompted prior payload now = ofPayload payload now ∨
      ∃ s ∈ prior, prompted prior payload now = s := by
  cases prior with
  | none => exact Or.inl rfl
  | some s =>
    by_cases h : s.transcriptPath = payload.transcript
    · exact Or.inr ⟨s, rfl, if_pos h⟩
    · exact Or.inl (if_neg h)

theorem useTool_eq (s : Session) (tool : String) (input : Json) (response : Option Json)
    (time : DateTime) :
    s.useTool tool input response time =
      { s with
        timeline := s.timeline ++ [s.toolEntry tool input response time]
        pendingTool := none
        filesModified :=
          if (ToolKind.ofName tool).modifiesFiles then
            withName s.filesModified (Path.baseName (textUnder "file_path" input))
          else s.filesModified
        errorCount :=
          if (ToolKind.ofName tool).isFailure response then s.errorCount + 1
          else s.errorCount
        pendingSubagent :=
          if (ToolKind.ofName tool).delegates then
            some ⟨((input.get? "subagent_type").bind Json.string?).getD "unknown", time⟩
          else s.pendingSubagent } := by
  unfold useTool noteSubagent noteFailure noteFile
  split <;> split <;> split <;> rfl

theorem answer_eq (s : Session) (settings : Settings) (transcript : Option (List UInt8))
    (time : DateTime) :
    s.answer settings transcript time =
      { s.takeIn (Transcript.incrementIn transcript s.watermark) with
        timeline := s.timeline ++
          ((Transcript.latestIn? transcript settings.maxResponse).map
            (TimelineEntry.response (stamp time))).toList } := by
  rw [answer]
  cases Transcript.latestIn? transcript settings.maxResponse with
  | none =>
    simp only [Option.map_none, Option.toList_none, List.append_nil]
    rfl
  | some text => rfl

section

variable (s : Session) (tool : String) (input : Json) (response : Option Json)
  (settings : Settings) (transcript : Option (List UInt8)) (time : DateTime)

@[simp] theorem timeline_useTool :
    (s.useTool tool input response time).timeline =
      s.timeline ++ [s.toolEntry tool input response time] := by
  rw [useTool_eq]

@[simp] theorem pendingTool_useTool :
    (s.useTool tool input response time).pendingTool = none := by
  rw [useTool_eq]

@[simp] theorem pendingSubagent_useTool :
    (s.useTool tool input response time).pendingSubagent =
      if (ToolKind.ofName tool).delegates then
        some ⟨((input.get? "subagent_type").bind Json.string?).getD "unknown", time⟩
      else s.pendingSubagent := by
  rw [useTool_eq]

@[simp] theorem filesModified_useTool :
    (s.useTool tool input response time).filesModified =
      if (ToolKind.ofName tool).modifiesFiles then
        withName s.filesModified (Path.baseName (textUnder "file_path" input))
      else s.filesModified := by
  rw [useTool_eq]

@[simp] theorem errorCount_useTool :
    (s.useTool tool input response time).errorCount =
      if (ToolKind.ofName tool).isFailure response then s.errorCount + 1
      else s.errorCount := by
  rw [useTool_eq]

@[simp] theorem timeline_answer :
    (s.answer settings transcript time).timeline =
      s.timeline ++ ((Transcript.latestIn? transcript settings.maxResponse).map
        (TimelineEntry.response (stamp time))).toList := by
  rw [answer_eq]

@[simp] theorem pendingTool_answer :
    (s.answer settings transcript time).pendingTool = s.pendingTool := by
  rw [answer_eq]
  rfl

@[simp] theorem pendingSubagent_answer :
    (s.answer settings transcript time).pendingSubagent = s.pendingSubagent := by
  rw [answer_eq]
  rfl

@[simp] theorem filesModified_answer :
    (s.answer settings transcript time).filesModified = s.filesModified := by
  rw [answer_eq]
  rfl

@[simp] theorem errorCount_answer :
    (s.answer settings transcript time).errorCount = s.errorCount := by
  rw [answer_eq]
  rfl

end

end Session

/-! ### What an event can do -/

/-- The event is none that is known, or it has no session to work on, or the session has
    nothing to do with it: the tool is not recorded, or no subagent is out. -/
def Occurrence.isIdle (prior : Option Session) (o : Occurrence) : Bool :=
  match o.payload.event?, prior with
  | none, _ => true
  | some (.unknown _), _ => true
  | some (.sessionStart _), _ => false
  | some (.userPromptSubmit _), _ => false
  | some .sessionEnd, _ => false
  | some _, none => true
  | some (.preToolUse tool _), some _ => !o.settings.records tool
  | some (.postToolUse tool _ _), some _ => !o.settings.records tool
  | some .subagentStop, some s => s.pendingSubagent.isNone
  | some (.permissionRequest _ _), some _ => false
  | some .stop, some _ => false

theorem Occurrence.ne_stop_of_isIdle {s : Session} {o : Occurrence}
    (h : o.isIdle (some s) = true) : o.payload.event? ≠ some .stop := by
  intro hstop
  simp [isIdle, hstop] at h

/-- The transitions that an event can have. -/
inductive Occurrence.Makes (prior : Option Session) (o : Occurrence) : Transition → Prop
  | nothing : o.isIdle prior = true → Makes prior o (.unchanged prior)
  | start (trigger : String) : o.payload.event? = some (.sessionStart trigger) →
      Makes prior o (.stored (.started prior trigger o.payload o.now))
  | prompt (text : String) : o.payload.event? = some (.userPromptSubmit text) →
      Makes prior o (.shown ((Session.prompted prior o.payload o.now).record
        (.prompt (Session.stamp o.now.localTime) text)))
  | announce (s : Session) (tool : String) (input : Json) : prior = some s →
      o.payload.event? = some (.preToolUse tool input) → o.settings.records tool = true →
      Makes prior o (.stored (s.announce tool input o.now.localTime))
  | useTool (s : Session) (tool : String) (input : Json) (response : Option Json) :
      prior = some s → o.payload.event? = some (.postToolUse tool input response) →
      o.settings.records tool = true →
      Makes prior o (.shown (s.useTool tool input response o.now.localTime))
  | finish (s : Session) (pending : PendingSubagent) : prior = some s →
      o.payload.event? = some .subagentStop → s.pendingSubagent = some pending →
      Makes prior o (.shown (s.finishSubagent pending o.now.localTime))
  | request (s : Session) (tool : String) (input : Json) : prior = some s →
      o.payload.event? = some (.permissionRequest tool input) →
      Makes prior o (.shown (s.record (.permissionRequest (Session.stamp o.now.localTime) tool
        ((ToolKind.ofName tool).summarizeInput input))))
  | answer (s : Session) : prior = some s → o.payload.event? = some .stop →
      Makes prior o (.shown (s.answer o.settings (Transcript.find? o.read s.transcriptPath)
        o.now.localTime))
  | finale (source : Option TokenSource) : o.payload.event? = some .sessionEnd →
      Makes prior o ⟨prior, .reset, source⟩

/-- The cases are the kinds of events, without a session and with one. -/
theorem Occurrence.makes (o : Occurrence) (prior : Option Session) :
    o.Makes prior (o.transition prior) := by
  simp only [transition, Transition.ofPayload]
  cases hevent : o.payload.event? with
  | none => exact .nothing (by simp [isIdle, hevent])
  | some event =>
    cases event with
    | sessionStart trigger => exact .start trigger hevent
    | userPromptSubmit text => exact .prompt text hevent
    | sessionEnd =>
      cases prior with
      | none => exact .finale none hevent
      | some s => exact .finale _ hevent
    | unknown name => exact .nothing (by simp [isIdle, hevent])
    | preToolUse tool input =>
      cases prior with
      | none => exact .nothing (by simp [isIdle, hevent])
      | some s =>
        simp only [Transition.ofEvent]
        split
        · exact .announce s tool input rfl hevent ‹_›
        · rename_i hrecords
          exact .nothing (by simp [isIdle, hevent, hrecords])
    | postToolUse tool input response =>
      cases prior with
      | none => exact .nothing (by simp [isIdle, hevent])
      | some s =>
        simp only [Transition.ofEvent]
        split
        · exact .useTool s tool input response rfl hevent ‹_›
        · rename_i hrecords
          exact .nothing (by simp [isIdle, hevent, hrecords])
    | subagentStop =>
      cases prior with
      | none => exact .nothing (by simp [isIdle, hevent])
      | some s =>
        simp only [Transition.ofEvent]
        split
        · exact .finish s _ rfl hevent ‹_›
        · rename_i hnone
          exact .nothing (by simp [isIdle, hevent, hnone])
    | permissionRequest tool input =>
      cases prior with
      | none => exact .nothing (by simp [isIdle, hevent])
      | some s => exact .request s tool input rfl hevent
    | stop =>
      cases prior with
      | none => exact .nothing (by simp [isIdle, hevent])
      | some s => exact .answer s rfl hevent

/-! ### Within a session -/

/-- The event leaves the session on a transcript open: it neither starts nor ends one,
    nor is it a prompt on another transcript. -/
def Payload.staysIn (path : String) (payload : Payload) : Bool :=
  match payload.event? with
  | some (.sessionStart _) => false
  | some .sessionEnd => false
  | some (.userPromptSubmit _) => payload.transcript = path
  | _ => true

namespace Session

/-- What an event within a session makes of it. -/
inductive Step (s : Session) (o : Occurrence) : Session → Prop
  | idle : o.isIdle (some s) = true → Step s o s
  | prompt (text : String) : o.payload.event? = some (.userPromptSubmit text) →
      Step s o (s.record (.prompt (stamp o.now.localTime) text))
  | announce (tool : String) (input : Json) : o.payload.event? = some (.preToolUse tool input) →
      o.settings.records tool = true → Step s o (s.announce tool input o.now.localTime)
  | useTool (tool : String) (input : Json) (response : Option Json) :
      o.payload.event? = some (.postToolUse tool input response) →
      o.settings.records tool = true → Step s o (s.useTool tool input response o.now.localTime)
  | finish (pending : PendingSubagent) : o.payload.event? = some .subagentStop →
      s.pendingSubagent = some pending → Step s o (s.finishSubagent pending o.now.localTime)
  | request (tool : String) (input : Json) :
      o.payload.event? = some (.permissionRequest tool input) →
      Step s o (s.record (.permissionRequest (stamp o.now.localTime) tool
        ((ToolKind.ofName tool).summarizeInput input)))
  | answer : o.payload.event? = some .stop →
      Step s o (s.answer o.settings (Transcript.find? o.read s.transcriptPath) o.now.localTime)

/-- An event that stays in a session makes a step of it. -/
theorem exists_step {s : Session} {o : Occurrence}
    (h : o.payload.staysIn s.transcriptPath = true) :
    ∃ s', next (some s) o = some s' ∧ Step s o s' := by
  have hmakes := o.makes (some s)
  rw [next]
  generalize o.transition (some s) = transition at hmakes ⊢
  cases hmakes with
  | nothing hidle => exact ⟨s, rfl, .idle hidle⟩
  | start trigger hevent =>
    rw [Payload.staysIn, hevent] at h
    cases h
  | prompt text hevent =>
    rw [Payload.staysIn, hevent] at h
    have hpath : s.transcriptPath = o.payload.transcript := (of_decide_eq_true h).symm
    refine ⟨_, rfl, ?_⟩
    rw [prompted, if_pos hpath]
    exact .prompt text hevent
  | announce s' tool input hs hevent hrecords =>
    cases hs
    exact ⟨_, rfl, .announce tool input hevent hrecords⟩
  | useTool s' tool input response hs hevent hrecords =>
    cases hs
    exact ⟨_, rfl, .useTool tool input response hevent hrecords⟩
  | finish s' pending hs hevent hpending =>
    cases hs
    exact ⟨_, rfl, .finish pending hevent hpending⟩
  | request s' tool input hs hevent =>
    cases hs
    exact ⟨_, rfl, .request tool input hevent⟩
  | answer s' hs hevent =>
    cases hs
    exact ⟨_, rfl, .answer hevent⟩
  | finale source hevent =>
    rw [Payload.staysIn, hevent] at h
    cases h

end Session

end SessionLog
