/-
  SessionLog/Proofs/Session/Failures.lean
  =======================================
  **The failures that are counted are the failures that are shown.**

  A use is counted as failed by its response, and its entry shows a failure by the first
  words of its output. The error of the response decides both. Beyond that a shell counts its
  exit codes without showing them, and what is read, grepped or globbed is told in words of
  the response, which may be those of a failure. Where none of these tools is recorded, the
  counter agrees with the entries that were added since the session was opened.
-/
import SessionLog.Proofs.Session.Announcement
import SessionLog.Proofs.Session.Uses

namespace SessionLog

/-! ### Failures by the response and in the output -/

namespace ToolKind

/-- An output begins like that of a failure. -/
def TellsFailure (output : String) : Prop := "failed: ".toList <+: output.toList

instance (output : String) : Decidable (TellsFailure output) :=
  inferInstanceAs (Decidable ("failed: ".toList <+: output.toList))

theorem tellsFailure_append (text : String) : TellsFailure ("failed: " ++ text) := by
  rw [TellsFailure, String.toList_append]
  exact List.prefix_append _ _

theorem not_tellsFailure_empty : ¬TellsFailure "" := by decide

variable {kind : ToolKind} {response : Json}

theorem summarizeOutput_of_error {error : Json} (h : error? response = some error) :
    kind.summarizeOutput (some response) = "failed: " ++ Text.cap 30 error.display := by
  cases response with
  | null => cases h
  | bool _ | number _ | string _ | array _ | object _ => simp only [summarizeOutput, h]

theorem summarizeOutput_of_no_error (h : error? response = none) :
    kind.summarizeOutput (some response) = "" ∨
      kind.summarizeOutput (some response) = kind.summarizeSuccess response := by
  cases response with
  | null => exact Or.inl rfl
  | bool _ | number _ | string _ | array _ | object _ =>
    right
    simp only [summarizeOutput, h]

/-- The lines of a patch are told by their number. -/
theorem not_tellsFailure_patchSummary (response : Json) :
    ¬TellsFailure (patchSummary response) := by
  rw [patchSummary.eq_def]
  split
  · exact not_tellsFailure_empty
  · exact not_tellsFailure_empty
  · rename_i hunks _ _
    obtain ⟨c, ds, hds⟩ := List.exists_cons_of_ne_nil
      (Text.digits_ne_nil (patchLines hunks).toNat)
    have hdigit := Text.allDigits_digits _ c (hds ▸ List.mem_cons_self)
    have htext : (String.ofList (c :: ds) ++ " lines changed").toList =
        c :: (ds ++ " lines changed".toList) := by
      rw [String.toList_append, String.toList_ofList]
      rfl
    rw [hds, TellsFailure, htext]
    rintro ⟨rest, hrest⟩
    rw [← (List.cons.inj hrest).1] at hdigit
    cases hdigit

/-- Of a success, only what is read, grepped or globbed is told in words of the response. -/
theorem not_tellsFailure_summarizeSuccess (hkind : kind ∉ [.read, .grep, .glob])
    (response : Json) : ¬TellsFailure (kind.summarizeSuccess response) := by
  cases kind with
  | read | grep | glob => simp at hkind
  | edit => exact not_tellsFailure_patchSummary response
  | write | bash | skill | task | notebookEdit | askUserQuestion | other =>
    exact not_tellsFailure_empty

/-- A failure is shown unless it is one by its exit code. -/
theorem tellsFailure_of_isFailure {response : Option Json} (hshell : kind ≠ .bash)
    (h : kind.isFailure response = true) : TellsFailure (kind.summarizeOutput response) := by
  cases response with
  | none => cases h
  | some response =>
    have herror : (error? response).isSome = true := by
      simpa [isFailure, isShell, hshell] using h
    obtain ⟨error, herror⟩ := Option.isSome_iff_exists.1 herror
    rw [summarizeOutput_of_error herror]
    exact tellsFailure_append _

theorem isFailure_of_tellsFailure {response : Option Json} (hkind : kind ∉ [.read, .grep, .glob])
    (h : TellsFailure (kind.summarizeOutput response)) : kind.isFailure response = true := by
  cases response with
  | none => exact absurd h not_tellsFailure_empty
  | some response =>
    cases herror : error? response with
    | some error => simp [isFailure, herror]
    | none =>
      rcases summarizeOutput_of_no_error herror with hnothing | hsuccess
      · rw [hnothing] at h
        exact absurd h not_tellsFailure_empty
      · rw [hsuccess] at h
        exact absurd h (not_tellsFailure_summarizeSuccess hkind response)

/-- A shell fails without showing it exactly if nothing but its exit code tells of it. -/
theorem fails_unshown_iff :
    (bash.isFailure (some response) = true ∧
        ¬TellsFailure (bash.summarizeOutput (some response))) ↔
      error? response = none ∧ response.members?.isSome = true ∧
        isBadExit (exitCode response) = true := by
  cases herror : error? response with
  | some error =>
    rw [summarizeOutput_of_error herror]
    simp [tellsFailure_append]
  | none =>
    have houtput : bash.summarizeOutput (some response) = "" := by
      rcases summarizeOutput_of_no_error herror with hnothing | hsuccess
      · exact hnothing
      · exact hsuccess
    rw [houtput]
    simp [isFailure, isShell, herror, not_tellsFailure_empty]

end ToolKind

/-! ### Entries that show a failure -/

def TimelineEntry.showsFailure : TimelineEntry → Bool
  | .tool _ _ _ (some output) => ToolKind.TellsFailure output
  | _ => false

/-- The entry of a use has the output of the use, if there is any. -/
theorem Session.exists_toolEntry (s : Session) (tool : String) (input : Json)
    (response : Option Json) (time : DateTime) :
    ∃ ts line, s.toolEntry tool input response time =
      .tool ts tool line (output? tool response) :=
  ⟨_, _, rfl⟩

theorem Session.output?_of_tellsFailure {tool : String} {response : Option Json}
    (h : ToolKind.TellsFailure ((ToolKind.ofName tool).summarizeOutput response)) :
    output? tool response = some ((ToolKind.ofName tool).summarizeOutput response) := by
  rw [output?_eq_some_iff]
  refine ⟨rfl, ?_⟩
  intro hempty
  rw [hempty] at h
  exact ToolKind.not_tellsFailure_empty h

theorem Session.showsFailure_toolEntry_iff (s : Session) (tool : String) (input : Json)
    (response : Option Json) (time : DateTime) :
    (s.toolEntry tool input response time).showsFailure = true ↔
      ToolKind.TellsFailure ((ToolKind.ofName tool).summarizeOutput response) := by
  obtain ⟨ts, line, hentry⟩ := s.exists_toolEntry tool input response time
  rw [hentry, output?]
  split
  · rename_i hempty
    rw [hempty]
    exact iff_of_false Bool.false_ne_true ToolKind.not_tellsFailure_empty
  · exact decide_eq_true_iff

namespace ToolUse

/-- The tools that may fail without showing it, or show a failure without failing. -/
def unclearTools : List String := ["Bash", "Read", "Grep", "Glob"]

theorem ofName_of_not_mem_unclearTools {tool : String} (h : tool ∉ unclearTools) :
    ToolKind.ofName tool ∉ [.bash, .read, .grep, .glob] := by
  rw [ToolKind.ofName.eq_def]
  split <;> simp_all [unclearTools]

theorem ofName_ne_bash {tool : String} (h : tool ≠ "Bash") : ToolKind.ofName tool ≠ .bash := by
  rw [ToolKind.ofName.eq_def]
  split <;> simp_all

theorem showsFailure_eq_failed {u : ToolUse} (h : u.tool ∉ unclearTools) (s : Session)
    (time : DateTime) : (s.toolEntry u.tool u.input u.response time).showsFailure = u.failed := by
  have hkind := ofName_of_not_mem_unclearTools h
  rw [List.mem_cons, not_or] at hkind
  rw [Bool.eq_iff_iff, Session.showsFailure_toolEntry_iff, failed]
  exact ⟨ToolKind.isFailure_of_tellsFailure hkind.2, ToolKind.tellsFailure_of_isFailure hkind.1⟩

end ToolUse

/-- The settings record none of some tools. -/
def Settings.PassesOver (settings : Settings) (tools : List String) : Prop :=
  ∀ tool ∈ tools, settings.records tool = false

instance (settings : Settings) (tools : List String) : Decidable (settings.PassesOver tools) :=
  inferInstanceAs (Decidable (∀ tool ∈ tools, _ = _))

/-! ### What a session was opened with -/

/-- The timeline that an event gives to the session that it opens. A start may go on with the
    one of the session before. -/
def Occurrence.givenTimeline (prior : Option Session) (o : Occurrence) : List TimelineEntry :=
  match o.payload.event? with
  | some (.sessionStart trigger) => (Session.started prior trigger o.payload o.now).timeline
  | _ => []

namespace Session

/-- The timeline that the open session was given by the last event that opened one. -/
def givenTimeline (events : List (Option Session × Occurrence)) : List TimelineEntry :=
  match events.reverse.find? fun event => event.2.payload.opens event.1 with
  | some event => event.2.givenTimeline event.1
  | none => []

theorem givenTimeline_concat (events : List (Option Session × Occurrence))
    (prior : Option Session) (o : Occurrence) :
    givenTimeline (events ++ [(prior, o)]) =
      if o.payload.opens prior then o.givenTimeline prior else givenTimeline events := by
  rw [givenTimeline, List.reverse_concat, List.find?_cons]
  cases o.payload.opens prior with
  | true => rfl
  | false => rfl

variable {s t : Session} {o : Occurrence} {prior : Option Session} {given : List TimelineEntry}

/-- The session has the timeline that it was given and more, and has counted the failures
    that are shown in what is more. -/
def Tallies (given : List TimelineEntry) (s : Session) : Prop :=
  ∃ added, s.timeline = given ++ added ∧
    s.errorCount = UInt64.ofNat (added.countP TimelineEntry.showsFailure)

/-- A session is opened without failures. A prompt that opens it shows none. -/
theorem tallies_of_opens (hopens : o.payload.opens prior = true) (h : next prior o = some s) :
    s.Tallies (o.givenTimeline prior) := by
  rcases Payload.opens_cases hopens with ⟨trigger, hevent⟩ | ⟨text, hevent, hother⟩
  · rw [next_of_start hevent] at h
    obtain ⟨timeline, hstarted⟩ := started_eq prior trigger o.payload o.now
    rw [Occurrence.givenTimeline, hevent]
    simp only [hstarted] at h ⊢
    cases h
    exact ⟨[], (List.append_nil _).symm, rfl⟩
  · rw [next_of_prompt hevent hother] at h
    rw [Occurrence.givenTimeline, hevent]
    cases h
    exact ⟨_, rfl, rfl⟩

/-- A step adds to the timeline and to the counter, one failure for each that is shown. -/
theorem Step.exists_added (h : Step s o t)
    (hsettings : o.settings.PassesOver ToolUse.unclearTools) :
    ∃ added, t.timeline = s.timeline ++ added ∧
      t.errorCount = s.errorCount + UInt64.ofNat (added.countP TimelineEntry.showsFailure) := by
  cases h with
  | idle _ | announce tool input _ _ =>
    exact ⟨[], (List.append_nil _).symm, (UInt64.add_zero _).symm⟩
  | prompt text _ | finish pending _ _ | request tool input _ =>
    exact ⟨[_], rfl, (UInt64.add_zero _).symm⟩
  | answer _ =>
    refine ⟨_, timeline_answer _ _ _ _, ?_⟩
    cases Transcript.latestIn? (Transcript.find? o.read s.transcriptPath)
      o.settings.maxResponse with
    | none => simp
    | some text => simp [TimelineEntry.showsFailure]
  | useTool tool input response _ hrecords =>
    -- the tool is recorded, so its response and its entry agree on whether it failed
    have hclear : tool ∉ ToolUse.unclearTools := by
      intro hunclear
      rw [hsettings tool hunclear] at hrecords
      cases hrecords
    have hshows := ToolUse.showsFailure_eq_failed (u := ⟨tool, input, response⟩) hclear s
      o.now.localTime
    refine ⟨_, timeline_useTool _ _ _ _ _, ?_⟩
    rw [errorCount_useTool, List.countP_singleton, hshows, ToolUse.failed]
    cases (ToolKind.ofName tool).isFailure response with
    | true => rfl
    | false => exact (UInt64.add_zero _).symm

theorem Tallies.step (h : s.Tallies given) (hstep : Step s o t)
    (hsettings : o.settings.PassesOver ToolUse.unclearTools) : t.Tallies given := by
  obtain ⟨before, hbefore, hcounted⟩ := h
  obtain ⟨added, hadded, hcount⟩ := hstep.exists_added hsettings
  refine ⟨before ++ added, ?_, ?_⟩
  · rw [hadded, hbefore, List.append_assoc]
  · rw [hcount, hcounted, List.countP_append, UInt64.ofNat_add]

theorem tallies_after {run : List Occurrence} (hs : after none run = some s)
    (hsettings : ∀ o ∈ run, o.settings.PassesOver ToolUse.unclearTools) :
    s.Tallies (givenTimeline (history none run)) := by
  have htallies := after_induction
    (motive := fun events s =>
      (∀ event ∈ events, event.2.settings.PassesOver ToolUse.unclearTools) →
        s.Tallies (givenTimeline events)) ?_ ?_ hs
  · apply htallies
    intro event hevent
    exact hsettings event.2 (mem_of_mem_history hevent)
  · intro events prior o s hopens hnext _
    rw [givenTimeline_concat, if_pos hopens]
    exact tallies_of_opens hopens hnext
  · intro events s o t hopens hstep htallies hall
    rw [List.forall_mem_append, List.forall_mem_singleton] at hall
    rw [givenTimeline_concat, hopens, if_neg Bool.false_ne_true]
    exact (htallies hall.1).step hstep hall.2

end Session

/-- The default settings record none of the tools whose failures are unclear. After a run
    under such settings, a session that was opened with an empty timeline has counted the
    failures that its timeline shows, as long as there is room for their number. Whatever the
    settings are, the entry of a use that fails shows the failure, unless the tool is a
    shell. -/
theorem failures_counted_are_shown :
    Settings.default.PassesOver ToolUse.unclearTools ∧
    (∀ (run : List Occurrence) (s : Session),
      (∀ o ∈ run, o.settings.PassesOver ToolUse.unclearTools) →
      Session.after none run = some s →
      Session.givenTimeline (Session.history none run) = [] →
      s.errorCount = UInt64.ofNat (s.timeline.countP TimelineEntry.showsFailure) ∧
      (s.timeline.countP TimelineEntry.showsFailure < UInt64.size →
        s.errorCount.toNat = s.timeline.countP TimelineEntry.showsFailure)) ∧
    ∀ (s : Session) (o : Occurrence) (u : ToolUse), o.use? = some u → u.failed = true →
      u.tool ≠ "Bash" →
      ∃ t ts line output, Session.next (some s) o = some t ∧
        t.timeline = s.timeline ++ [.tool ts u.tool line (some output)] ∧
        "failed: ".toList <+: output.toList := by
  refine ⟨by decide, ?_, ?_⟩
  · intro run s hsettings hs hgiven
    obtain ⟨added, htimeline, hcount⟩ := Session.tallies_after hs hsettings
    rw [hgiven, List.nil_append] at htimeline
    rw [htimeline, hcount]
    exact ⟨rfl, UInt64.toNat_ofNat_of_lt⟩
  · intro s o u huse hfailed hshell
    have htells := ToolKind.tellsFailure_of_isFailure (ToolUse.ofName_ne_bash hshell) hfailed
    obtain ⟨ts, line, hentry⟩ := s.exists_toolEntry u.tool u.input u.response o.now.localTime
    rw [Session.output?_of_tellsFailure htells] at hentry
    refine ⟨_, ts, line, _, Session.next_of_use? huse s, ?_, htells⟩
    rw [Session.useTool_eq, hentry]

/-- Tools fail in a session that follows another one, with a shell among them that is not
    recorded. -/
def failingTools : List Occurrence :=
  [.named "SessionStart" none, .ofUse "Write" "/p/a.rs" true, .named "SessionEnd" none,
    .named "UserPromptSubmit" none, .ofUse "Write" "/p/a.rs" true,
    .ofUse "Bash" "/p/a.rs" true, .ofUse "Edit" "/p/a.rs" false, .ofUse "Skill" "" true]

/-- A file cannot be read, and that is recorded. -/
def failingRead : Occurrence :=
  { Occurrence.ofUse "Read" "/p/a.rs" true with
    settings := { Settings.default with tools := ["Read"] } }

theorem failures_shown_of_failingTools :
    ∃ s, Session.after none failingTools = some s ∧ s.errorCount.toNat = 2 ∧
      ∃ t ts line output, Session.next (some s) failingRead = some t ∧
        t.timeline = s.timeline ++ [.tool ts "Read" line (some output)] ∧
        "failed: ".toList <+: output.toList := by
  obtain ⟨-, hcounted, hshown⟩ := failures_counted_are_shown
  have hcount : ∃ s ∈ Session.after none failingTools,
      s.timeline.countP TimelineEntry.showsFailure = 2 := by decide +kernel
  obtain ⟨s, hs, hcount⟩ := hcount
  obtain ⟨-, hcounter⟩ := hcounted failingTools s (by decide +kernel) hs (by decide +kernel)
  rw [hcount] at hcounter
  refine ⟨s, hs, hcounter (by decide), ?_⟩
  exact hshown s failingRead _ rfl (by decide +kernel) (by decide)

end SessionLog
