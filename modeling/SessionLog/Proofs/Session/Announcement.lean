/-
  SessionLog/Proofs/Session/Announcement.lean
  ===========================================
  **A tool that was used is recorded as it was announced.**

  A session has room for one announcement. The latest one stands, whatever else happens,
  until a recorded tool is used or another session is opened. So a tool that is used has the
  time and the input of the latest announcement since then, if that was of this tool.
-/
import SessionLog.Proofs.Session.History

namespace SessionLog

/-! ### Announcements and uses -/

namespace Occurrence

/-- The announcement of a recorded tool: its time, the tool and one line about its input. -/
def announcement? (o : Occurrence) : Option PendingTool :=
  match o.payload.event? with
  | some (.preToolUse tool input) =>
    if o.settings.records tool then
      some ⟨o.now.localTime, tool, (ToolKind.ofName tool).summarizeInput input⟩
    else none
  | _ => none

/-- A recorded tool was used. -/
def isUse (o : Occurrence) : Bool :=
  match o.payload.event? with
  | some (.postToolUse tool _ _) => o.settings.records tool
  | _ => false

/-- What an event leaves of an announcement. -/
def overwrite (announced : Option PendingTool) (o : Occurrence) : Option PendingTool :=
  if o.isUse then none else o.announcement?.or announced

theorem overwrite_eq (announced : Option PendingTool) (o : Occurrence) :
    o.overwrite announced =
      match o.payload.event? with
      | some (.preToolUse tool input) =>
        if o.settings.records tool then
          some ⟨o.now.localTime, tool, (ToolKind.ofName tool).summarizeInput input⟩
        else announced
      | some (.postToolUse tool _ _) => if o.settings.records tool then none else announced
      | _ => announced := by
  rw [overwrite, isUse.eq_def, announcement?.eq_def]
  cases o.payload.event? with
  | none => rfl
  | some event =>
    cases event with
    | preToolUse tool input =>
      simp only [Bool.false_eq_true, if_false]
      split <;> rfl
    | _ => rfl

/-- A tool that an idle event is about is not recorded. -/
theorem overwrite_of_isIdle {s : Session} {o : Occurrence} (h : o.isIdle (some s) = true)
    (announced : Option PendingTool) : o.overwrite announced = announced := by
  rw [overwrite_eq]
  cases hevent : o.payload.event? with
  | none => rfl
  | some event =>
    rw [isIdle.eq_def, hevent] at h
    cases event with
    | preToolUse tool input =>
      have hrecords : ¬o.settings.records tool = true := by simpa using h
      exact if_neg hrecords
    | postToolUse tool input response =>
      have hrecords : ¬o.settings.records tool = true := by simpa using h
      exact if_neg hrecords
    | _ => rfl

end Occurrence

/-- The latest announcement among some events, if no recorded tool was used after it. -/
def lastAnnouncement? (events : List Occurrence) : Option PendingTool :=
  (events.rtakeWhile fun o => !o.isUse).reverse.findSome? Occurrence.announcement?

namespace Session

/-! ### The announcement that a session has -/

theorem pendingTool_step {s t : Session} {o : Occurrence} (h : Step s o t) :
    t.pendingTool = o.overwrite s.pendingTool := by
  cases h with
  | idle hidle => exact (Occurrence.overwrite_of_isIdle hidle s.pendingTool).symm
  | announce tool input hevent hrecords =>
    rw [Occurrence.overwrite_eq, hevent]
    exact (if_pos hrecords).symm
  | useTool tool input response hevent hrecords =>
    simp [Occurrence.overwrite_eq, hevent, hrecords]
  | answer hevent => simp [Occurrence.overwrite_eq, hevent]
  | prompt text hevent | finish pending hevent hpending | request tool input hevent =>
    rw [Occurrence.overwrite_eq, hevent]
    rfl

/-- A session is opened without an announcement. -/
theorem folds_pendingTool :
    Folds pendingTool none fun announced o => o.overwrite announced where
  opened _ _ _ := rfl
  step _ _ _ hstep := pendingTool_step hstep

theorem pendingTool_after {run : List Occurrence} {s : Session} (h : after none run = some s) :
    s.pendingTool = lastAnnouncement? (sinceOpened (history none run)) := by
  rw [folds_pendingTool.after h]
  exact (latest?_eq_foldl Occurrence.isUse Occurrence.announcement? _).symm

/-! ### Tools that are used -/

theorem announced_of_name_eq {s : Session} {announcement : PendingTool} {tool : String}
    (h : s.pendingTool = some announcement) (hname : announcement.name = tool) (input : Json)
    (time : DateTime) :
    s.announced tool input time = (announcement.time, announcement.input) := by
  rw [announced, h]
  exact if_pos hname

theorem announced_of_name_ne {s : Session} {tool : String}
    (h : ∀ announcement ∈ s.pendingTool, announcement.name ≠ tool) (input : Json)
    (time : DateTime) :
    s.announced tool input time = (time, (ToolKind.ofName tool).summarizeInput input) := by
  cases hpending : s.pendingTool with
  | none => rw [announced, hpending]
  | some announcement =>
    rw [announced, hpending]
    exact if_neg (h announcement hpending)

theorem output?_eq_some_iff {tool text : String} {response : Option Json} :
    output? tool response = some text ↔
      text = (ToolKind.ofName tool).summarizeOutput response ∧ text ≠ "" := by
  rw [output?]
  by_cases h : (ToolKind.ofName tool).summarizeOutput response = ""
  · simp [h]
  · simp only [h, if_false, Option.some.injEq]
    constructor
    · rintro rfl
      exact ⟨rfl, h⟩
    · exact fun htext => htext.1.symm

end Session

/-- A use of a recorded tool that finds a session, after any run, adds one entry for the tool
    and leaves no announcement. If the latest announcement since the session was opened and
    since a recorded tool was last used is of this tool, the entry has its time and input;
    else it has those of the use. It has an output if there is anything to say of it. -/
theorem useTool_as_announced (before : List Occurrence) (o : Occurrence) (s : Session)
    (tool : String) (input : Json) (response : Option Json)
    (hopen : Session.after none before = some s)
    (hevent : o.payload.event? = some (.postToolUse tool input response))
    (hrecords : o.settings.records tool = true) :
    ∃ t used line output, Session.next (some s) o = some t ∧ t.pendingTool = none ∧
      t.timeline = s.timeline ++ [.tool (Session.stamp used) tool line output] ∧
      (∀ announcement,
        lastAnnouncement? (Session.sinceOpened (Session.history none before)) =
          some announcement →
        announcement.name = tool → used = announcement.time ∧ line = announcement.input) ∧
      ((∀ announcement,
        lastAnnouncement? (Session.sinceOpened (Session.history none before)) =
          some announcement →
        announcement.name ≠ tool) →
        used = o.now.localTime ∧ line = (ToolKind.ofName tool).summarizeInput input) ∧
      ∀ text, output = some text ↔
        text = (ToolKind.ofName tool).summarizeOutput response ∧ text ≠ "" := by
  have hpending := Session.pendingTool_after hopen
  have hnext : Session.next (some s) o =
      some (s.useTool tool input response o.now.localTime) := by
    rw [Session.next, Occurrence.transition, Transition.ofPayload, hevent]
    simp only [Transition.ofEvent, hrecords, if_true]
    rfl
  rw [Session.useTool_eq] at hnext
  refine ⟨_, (s.announced tool input o.now.localTime).1,
    (s.announced tool input o.now.localTime).2, Session.output? tool response, hnext, rfl, rfl,
    ?_, ?_, fun text => Session.output?_eq_some_iff⟩
  · intro announcement hlast hname
    rw [← hpending] at hlast
    rw [Session.announced_of_name_eq hlast hname]
    exact ⟨rfl, rfl⟩
  · intro hother
    rw [← hpending] at hother
    rw [Session.announced_of_name_ne hother]
    exact ⟨rfl, rfl⟩

/-- Two tools are announced. Before the second one is used, another tool is that is not
    recorded, and there are events of all other kinds within a session. -/
def announcedTools : List Occurrence :=
  [.named "SessionStart" none,
    .ofTool "PreToolUse" "Write" none none,
    .ofTool "PreToolUse" "Edit" (some (.object [("file_path", .string "/p/a.rs")])) none,
    .ofTool "PreToolUse" "Bash" none none,
    .ofTool "PostToolUse" "Bash" none none,
    .named "UserPromptSubmit" none, .named "SubagentStop" none, .named "Stop" none,
    .ofTool "PermissionRequest" "Write" none none, .named "Noise" none]

theorem useTool_as_announced_edit :
    let edit := { Occurrence.ofTool "PostToolUse" "Edit" none
      (some (.object [("error", .string "no")])) with now := .secondMinute }
    ∃ s t, Session.after none announcedTools = some s ∧ Session.next (some s) edit = some t ∧
      t.pendingTool = none ∧
      t.timeline = s.timeline ++ [.tool "01-01 00:00" "Edit" "a.rs" (some "failed: no")] := by
  intro edit
  obtain ⟨s, hopen⟩ : ∃ s, Session.after none announcedTools = some s :=
    Option.isSome_iff_exists.1 (by decide +kernel)
  obtain ⟨t, used, line, output, hnext, hpending, htimeline, hannounced, -, houtput⟩ :=
    useTool_as_announced announcedTools edit s "Edit" .null _ hopen rfl (by decide)
  let announcement : PendingTool := ⟨.epoch, "Edit", "a.rs"⟩
  have hlast : lastAnnouncement? (Session.sinceOpened (Session.history none announcedTools)) =
      some announcement := by decide +kernel
  obtain ⟨rfl, rfl⟩ := hannounced announcement hlast rfl
  have htext : output = some "failed: no" := by
    rw [houtput]
    decide +kernel
  have hstamp : Session.stamp announcement.time = "01-01 00:00" := by decide +kernel
  rw [htext, hstamp] at htimeline
  exact ⟨s, t, hopen, hnext, hpending, htimeline⟩

end SessionLog
