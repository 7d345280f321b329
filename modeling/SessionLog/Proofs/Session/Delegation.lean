/-
  SessionLog/Proofs/Session/Delegation.lean
  =========================================
  **A subagent that comes back is the one that was sent off last.**

  Only the use of a recorded `Task` tool sends a subagent off, and a session has room for
  one. The latest one stands until a subagent comes back or another session is opened. One
  that comes back is recorded with the time that it was out; where none is out, nothing is
  recorded.

  A timeline may go on in another session, and then the subagent that was out is forgotten.
  So a timeline never tells of more subagents than it tells of uses that sent one off.
-/
import SessionLog.Proofs.Session.Uses
import SessionLog.Proofs.Visit

namespace SessionLog

/-! ### Subagents sent off and come back -/

theorem ToolUse.delegates_iff (tool : String) :
    (ToolKind.ofName tool).delegates = true ↔ tool = "Task" := by
  rw [ToolKind.ofName.eq_def]
  split <;> simp_all [ToolKind.delegates]

namespace Occurrence

/-- The subagent that the use of a recorded tool sends off: its kind and the time. -/
def delegation? (o : Occurrence) : Option PendingSubagent :=
  o.use?.bind fun u =>
    if u.tool = "Task" then
      some ⟨((u.input.get? "subagent_type").bind Json.string?).getD "unknown", o.now.localTime⟩
    else none

def isReturn (o : Occurrence) : Bool :=
  match o.payload.event? with
  | some .subagentStop => true
  | _ => false

theorem delegation?_eq_none {o : Occurrence} (h : o.use? = none) : o.delegation? = none := by
  rw [delegation?, h]
  rfl

end Occurrence

/-- The latest subagent that some events have sent off, if none came back after it. -/
def lastDelegation? (events : List Occurrence) : Option PendingSubagent :=
  Session.latest? Occurrence.isReturn Occurrence.delegation? events

namespace Session

/-! ### The subagent that is out -/

theorem pendingSubagent_step {s t : Session} {o : Occurrence} (h : Step s o t) :
    t.pendingSubagent = if o.isReturn then none else o.delegation?.or s.pendingSubagent := by
  cases h with
  | idle hidle =>
    rw [Occurrence.delegation?_eq_none (Occurrence.use?_of_isIdle hidle), Occurrence.isReturn]
    split
    · rename_i hevent
      simpa [Occurrence.isIdle, hevent] using hidle
    · rfl
  | useTool tool input response hevent hrecords =>
    have huse : o.use? = some ⟨tool, input, response⟩ :=
      Occurrence.use?_eq_some_iff.2 ⟨hevent, hrecords⟩
    rw [pendingSubagent_useTool, Occurrence.isReturn, hevent, Occurrence.delegation?, huse,
      Option.bind_some]
    simp only [ToolUse.delegates_iff, Bool.false_eq_true, if_false]
    split
    · rfl
    · rfl
  | finish pending hevent hpending =>
    rw [Occurrence.isReturn, hevent]
    rfl
  | answer hevent =>
    simp [Occurrence.isReturn, Occurrence.delegation?, Occurrence.use?, hevent]
  | prompt text hevent | announce tool input hevent | request tool input hevent =>
    rw [Occurrence.isReturn, Occurrence.delegation?, Occurrence.use?, hevent]
    rfl

/-- A session is opened without a subagent. -/
theorem folds_pendingSubagent : Folds pendingSubagent none fun pending o =>
    if o.isReturn then none else o.delegation?.or pending where
  opened _ _ _ := rfl
  step _ _ _ hstep := pendingSubagent_step hstep

theorem pendingSubagent_after {run : List Occurrence} {s : Session}
    (h : after none run = some s) :
    s.pendingSubagent = lastDelegation? (sinceOpened (history none run)) := by
  rw [folds_pendingSubagent.after h]
  exact (latest?_eq_foldl Occurrence.isReturn Occurrence.delegation? _).symm

/-! ### Subagents in the timeline -/

end Session

namespace TimelineEntry

def isSubagent : TimelineEntry → Bool
  | .subagent _ _ _ _ => true
  | _ => false

/-- The use of a tool of a name. -/
def isUseOf (name : String) : TimelineEntry → Bool
  | .tool _ used _ _ => used = name
  | _ => false

end TimelineEntry

namespace Session

/-- The subagents that a timeline tells of and the one that is out have been sent off by uses
    that it tells of as well. -/
def IsBalanced (s : Session) : Prop :=
  s.timeline.countP TimelineEntry.isSubagent + (if s.pendingSubagent.isSome then 1 else 0) ≤
    s.timeline.countP (TimelineEntry.isUseOf "Task")

namespace IsBalanced

variable {s : Session}

theorem opened (payload : Payload) (now : Moment) : (ofPayload payload now).IsBalanced :=
  Nat.le_refl 0

theorem record (h : s.IsBalanced) {entry : TimelineEntry} (hentry : entry.isSubagent = false) :
    (s.record entry).IsBalanced := by
  simp only [IsBalanced, Session.record, List.countP_append, List.countP_singleton, hentry,
    Bool.false_eq_true, if_false, Nat.add_zero] at h ⊢
  exact Nat.le_add_right_of_le h

/-- A subagent that is sent off is counted as out, and its use in the timeline. -/
theorem useTool (h : s.IsBalanced) (tool : String) (input : Json) (response : Option Json)
    (time : DateTime) : (s.useTool tool input response time).IsBalanced := by
  have hentry : (s.toolEntry tool input response time).isSubagent = false := rfl
  have huse : (s.toolEntry tool input response time).isUseOf "Task" = true ↔ tool = "Task" :=
    decide_eq_true_iff
  simp only [IsBalanced, timeline_useTool, pendingSubagent_useTool, List.countP_append,
    List.countP_singleton, hentry, huse, ToolUse.delegates_iff, Bool.false_eq_true, if_false,
    Nat.add_zero] at h ⊢
  split
  · simp only [Option.isSome_some, if_true]
    omega
  · exact h

/-- A subagent that comes back is counted in the timeline instead of as out. -/
theorem finishSubagent (h : s.IsBalanced) {pending : PendingSubagent}
    (hpending : s.pendingSubagent = some pending) (time : DateTime) :
    (s.finishSubagent pending time).IsBalanced := by
  simp only [IsBalanced, hpending, Option.isSome_some, if_true] at h
  simp only [IsBalanced, Session.finishSubagent, Session.record, List.countP_append,
    List.countP_singleton, TimelineEntry.isSubagent, TimelineEntry.isUseOf, Option.isSome_none,
    Bool.false_eq_true, if_true, if_false, Nat.add_zero]
  exact h

/-- The timeline that goes on in another session tells of no subagent too many, as none is out
    any more. -/
theorem started {prior : Option Session} (hprior : ∀ s ∈ prior, s.IsBalanced) (trigger : String)
    (payload : Payload) (now : Moment) : (started prior trigger payload now).IsBalanced := by
  rcases started_cases prior trigger payload now with h | ⟨s, hs, h⟩
  · rw [h]
    exact opened payload now
  · rw [h]
    exact Nat.le_trans (Nat.add_le_add_left (Nat.zero_le _) _) (hprior s hs)

theorem prompted {prior : Option Session} (hprior : ∀ s ∈ prior, s.IsBalanced)
    (payload : Payload) (now : Moment) : (prompted prior payload now).IsBalanced := by
  rcases prompted_cases prior payload now with h | ⟨s, hs, h⟩
  · rw [h]
    exact opened payload now
  · rw [h]
    exact hprior s hs

end IsBalanced

end Session

/-- The cases are what an event can do. -/
theorem Occurrence.Makes.isBalanced {prior : Option Session} {o : Occurrence} {made : Transition}
    (h : o.Makes prior made) (hprior : ∀ s ∈ prior, s.IsBalanced) :
    ∀ t ∈ made.session, t.IsBalanced := by
  cases h with
  | nothing => exact hprior
  | start trigger => exact forall_mem_some (.started hprior trigger _ _)
  | prompt text => exact forall_mem_some ((Session.IsBalanced.prompted hprior _ _).record rfl)
  | announce s tool input hs => exact forall_mem_some (hprior s hs)
  | useTool s tool input response hs =>
    exact forall_mem_some ((hprior s hs).useTool tool input response _)
  | finish s pending hs _ hpending =>
    exact forall_mem_some ((hprior s hs).finishSubagent hpending _)
  | request s tool input hs => exact forall_mem_some ((hprior s hs).record rfl)
  | answer s hs =>
    have hanswer (response : Option String) (time : DateTime) :
        (s.respond response time).IsBalanced := by
      cases response with
      | none => exact hprior s hs
      | some text => exact (hprior s hs).record rfl
    exact forall_mem_some (hanswer _ _)
  | finale source => exact hprior

namespace Session

theorem isBalanced_after (run : List Occurrence) : ∀ s ∈ after none run, s.IsBalanced :=
  forall_after (fun _ _ _ _ hmakes => hmakes.isBalanced) (forall_mem_none _)

theorem toInt_durationSeconds (start stop : DateTime) :
    (durationSeconds start stop).toInt =
      Int.tdiv (DateTime.nanosBetween start stop) nanosPerSecond := by
  have hrange := DateTime.natAbs_secondsBetween_lt start stop
  rw [durationSeconds, Int64.toInt_ofInt_of_le (by omega) (by omega)]
  rfl

end Session

/-- A subagent comes back, after any run. If it is the latest that was sent off since the
    session was opened, and none came back after that, one entry tells of its kind and of the
    whole seconds that it was out, with the fraction cut off; then none is out, and the session
    is kept and shown. In any other case the session stays as it is, and so do all files.

    Hence a timeline tells of fewer subagents than of uses of `Task` as long as one is out, and
    never of more. -/
theorem subagents_of_delegations :
    (∀ (before : List Occurrence) (o : Occurrence), o.payload.event? = some .subagentStop →
      (∀ s sent, Session.after none before = some s →
        lastDelegation? (Session.sinceOpened (Session.history none before)) = some sent →
        ∃ seconds : Int64,
          seconds.toInt =
            Int.tdiv (DateTime.nanosBetween sent.since o.now.localTime) nanosPerSecond ∧
          o.transition (some s) = .shown { s with
            timeline := s.timeline ++
              [.subagent (Session.stamp o.now.localTime) sent.kind seconds true]
            pendingSubagent := none }) ∧
      ((∀ s ∈ Session.after none before,
          lastDelegation? (Session.sinceOpened (Session.history none before)) = none) →
        o.transition (Session.after none before) = .unchanged (Session.after none before) ∧
        ∀ tree layout settings now, (Handler.commit tree layout settings now
          (o.transition (Session.after none before))).tree = tree)) ∧
    (∀ (run : List Occurrence) (s : Session), Session.after none run = some s →
      s.timeline.countP TimelineEntry.isSubagent + (if s.pendingSubagent.isSome then 1 else 0) ≤
        s.timeline.countP (TimelineEntry.isUseOf "Task")) := by
  refine ⟨fun before o hevent => ⟨?_, ?_⟩, ?_⟩
  · intro s sent hopen hsent
    rw [← Session.pendingSubagent_after hopen] at hsent
    refine ⟨_, Session.toInt_durationSeconds sent.since o.now.localTime, ?_⟩
    rw [Occurrence.transition, Transition.ofPayload, hevent]
    simp only [Transition.ofEvent, hsent]
    rfl
  · intro hnone
    have hunchanged : o.transition (Session.after none before) =
        .unchanged (Session.after none before) := by
      rw [Occurrence.transition, Transition.ofPayload, hevent]
      cases hopen : Session.after none before with
      | none => rfl
      | some s =>
        have hout := Session.pendingSubagent_after hopen
        rw [hnone s hopen] at hout
        simp only [Transition.ofEvent, hout]
    refine ⟨hunchanged, fun tree layout settings now => ?_⟩
    rw [hunchanged, Handler.commit_unchanged]
  · exact fun run s hopen => Session.isBalanced_after run s hopen

/-- A subagent is sent off, and one more after it. Then there are events of other kinds, and a
    tool is used that sends none. -/
def sentOff : List Occurrence :=
  [.named "SessionStart" none,
    .ofTool "PostToolUse" "Task" none none,
    .ofTool "PostToolUse" "Task" (some (.object [("subagent_type", .string "review")])) none,
    .ofTool "PreToolUse" "Task" none none, .named "UserPromptSubmit" none,
    .ofTool "PostToolUse" "Edit" none none, .named "Stop" none]

theorem subagents_of_sentOff :
    let back := { Occurrence.named "SubagentStop" none with now := .secondMinute }
    ∃ s t, Session.after none sentOff = some s ∧ back.transition (some s) = .shown t ∧
      t.timeline = s.timeline ++ [.subagent "01-01 00:01" "review" 90 true] ∧
      Session.after none (sentOff ++ [back]) = some t ∧
      back.transition (some t) = .unchanged (some t) ∧
      t.timeline.countP TimelineEntry.isSubagent ≤
        t.timeline.countP (TimelineEntry.isUseOf "Task") := by
  intro back
  obtain ⟨hreturns, hcounts⟩ := subagents_of_delegations
  obtain ⟨s, hopen⟩ : ∃ s, Session.after none sentOff = some s :=
    Option.isSome_iff_exists.1 (by decide +kernel)
  let sent : PendingSubagent := ⟨"review", .epoch⟩
  have hsent : lastDelegation? (Session.sinceOpened (Session.history none sentOff)) =
      some sent := by decide +kernel
  obtain ⟨seconds, hseconds, hback⟩ := (hreturns sentOff back rfl).1 s sent hopen hsent
  have hninety : seconds = 90 := Int64.toInt_inj.1 (hseconds.trans (by decide +kernel))
  have hstamp : Session.stamp back.now.localTime = "01-01 00:01" := by decide +kernel
  rw [hninety, hstamp] at hback
  have hclosed := Session.after_concat none sentOff back
  rw [hopen, Session.next, hback] at hclosed
  have hnone : lastDelegation? (Session.sinceOpened
      (Session.history none (sentOff ++ [back]))) = none := by decide +kernel
  have hagain := ((hreturns (sentOff ++ [back]) back rfl).2 fun _ _ => hnone).1
  rw [hclosed] at hagain
  exact ⟨s, _, hopen, hback, rfl, hclosed, hagain, hcounts _ _ hclosed⟩

end SessionLog
