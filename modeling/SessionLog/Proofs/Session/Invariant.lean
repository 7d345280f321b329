/-
  SessionLog/Proofs/Session/Invariant.lean
  ========================================
  **Sessions that come from events can be kept.**

  A session is opened with the current version, and no event changes that. Its times are
  local times of the events that it has seen. So what holds of every local time of a run
  holds of all times in the sessions of the run.
-/
import SessionLog.Proofs.Machine
import SessionLog.Proofs.StateFile

namespace SessionLog

namespace Session

variable {p : DateTime → Prop} {s : Session} {now : DateTime}

theorem HasTimes.mono {q : DateTime → Prop} (h : s.HasTimes p) (himp : ∀ t, p t → q t) :
    s.HasTimes q where
  start := himp _ h.start
  pendingTool pending hpending := himp _ (h.pendingTool pending hpending)
  pendingSubagent pending hpending := himp _ (h.pendingSubagent pending hpending)

theorem IsKept.mono {q : DateTime → Prop} (h : s.IsKept p) (himp : ∀ t, p t → q t) :
    s.IsKept q :=
  ⟨h.version, h.times.mono himp⟩

/-! ### Single changes -/

theorem isKept_ofPayload (payload : Payload) {now : Moment} (hnow : p now.localTime) :
    (ofPayload payload now).IsKept p where
  version := rfl
  times := ⟨hnow, forall_mem_none _, forall_mem_none _⟩

theorem isKept_started (prior : Option Session) (trigger : String) (payload : Payload)
    {now : Moment} (hnow : p now.localTime) : (started prior trigger payload now).IsKept p := by
  have hfresh := (isKept_ofPayload payload hnow).times
  obtain ⟨timeline, hstarted⟩ := started_eq prior trigger payload now
  rw [hstarted]
  exact ⟨rfl, ⟨hfresh.start, hfresh.pendingTool, hfresh.pendingSubagent⟩⟩

theorem isKept_prompted {prior : Option Session} (hprior : ∀ s ∈ prior, s.IsKept p)
    (payload : Payload) {now : Moment} (hnow : p now.localTime) :
    (prompted prior payload now).IsKept p := by
  rcases prompted_cases prior payload now with h | ⟨s, hs, h⟩
  · rw [h]
    exact isKept_ofPayload payload hnow
  · rw [h]
    exact hprior s hs

theorem IsKept.record (h : s.IsKept p) (entry : TimelineEntry) : (s.record entry).IsKept p :=
  ⟨h.version, ⟨h.times.start, h.times.pendingTool, h.times.pendingSubagent⟩⟩

theorem IsKept.announce (h : s.IsKept p) (hnow : p now) (tool : String) (input : Json) :
    (s.announce tool input now).IsKept p := by
  refine ⟨h.version, ⟨h.times.start, ?_, h.times.pendingSubagent⟩⟩
  intro pending hpending
  cases hpending
  exact hnow

theorem IsKept.noteFile (h : s.IsKept p) (tool : String) (input : Json) :
    (s.noteFile tool input).IsKept p := by
  rw [Session.noteFile]
  split
  · exact ⟨h.version, ⟨h.times.start, h.times.pendingTool, h.times.pendingSubagent⟩⟩
  · exact h

theorem IsKept.noteFailure (h : s.IsKept p) (tool : String) (response : Option Json) :
    (s.noteFailure tool response).IsKept p := by
  rw [Session.noteFailure]
  split
  · exact ⟨h.version, ⟨h.times.start, h.times.pendingTool, h.times.pendingSubagent⟩⟩
  · exact h

theorem IsKept.noteSubagent (h : s.IsKept p) (hnow : p now) (tool : String) (input : Json) :
    (s.noteSubagent tool input now).IsKept p := by
  rw [Session.noteSubagent]
  split
  · refine ⟨h.version, ⟨h.times.start, h.times.pendingTool, ?_⟩⟩
    intro pending hpending
    cases hpending
    exact hnow
  · exact h

theorem IsKept.useTool (h : s.IsKept p) (hnow : p now) (tool : String) (input : Json)
    (response : Option Json) : (s.useTool tool input response now).IsKept p := by
  have hrecorded : ({ s.record (s.toolEntry tool input response now) with
      pendingTool := none } : Session).IsKept p :=
    ⟨h.version, ⟨h.times.start, forall_mem_none _, h.times.pendingSubagent⟩⟩
  exact ((hrecorded.noteFile tool input).noteFailure tool response).noteSubagent hnow tool input

theorem IsKept.finishSubagent (h : s.IsKept p) (pending : PendingSubagent) (now : DateTime) :
    (s.finishSubagent pending now).IsKept p :=
  ⟨h.version, ⟨h.times.start, h.times.pendingTool, forall_mem_none _⟩⟩

theorem IsKept.answer (h : s.IsKept p) (settings : Settings)
    (transcript : Option (List UInt8)) (now : DateTime) :
    (s.answer settings transcript now).IsKept p := by
  have hrespond (response : Option String) : (s.respond response now).IsKept p := by
    cases response with
    | none => exact h
    | some text => exact h.record _
  have hresponded := hrespond (Transcript.latestIn? transcript settings.maxResponse)
  exact ⟨hresponded.version, ⟨hresponded.times.start, hresponded.times.pendingTool,
    hresponded.times.pendingSubagent⟩⟩

end Session

/-! ### Transitions -/

/-- A session is opened: by a start, or by a prompt that does not belong to the session
    before. -/
def Payload.opens (payload : Payload) (prior : Option Session) : Bool :=
  match payload.event? with
  | some (.sessionStart _) => true
  | some (.userPromptSubmit _) => !prior.any fun s => s.transcriptPath = payload.transcript
  | _ => false

/-- The shapes of transitions: nothing happens, a session is kept, a session is kept and
    shown, or the session ends and is shown. A session that is kept without being shown is
    new, or it is the one before with another announcement. -/
inductive Transition.Shape (prior : Option Session) (payload : Payload) : Transition → Prop
  | unchanged : Shape prior payload (unchanged prior)
  | stored (s : Session) : payload.opens prior = true ∨
      (∃ old ∈ prior, ∃ pending, s = { old with pendingTool := pending }) →
      Shape prior payload (stored s)
  | shown (s : Session) : Shape prior payload (shown s)
  | ended (source : Option TokenSource) : Shape prior payload ⟨prior, .reset, source⟩

namespace Occurrence

variable {p : DateTime → Prop} {prior : Option Session} {o : Occurrence} {made : Transition}

theorem Makes.shape (h : o.Makes prior made) : made.Shape prior o.payload := by
  cases h with
  | nothing => exact .unchanged
  | start trigger hevent =>
    have hopens : o.payload.opens prior = true := by rw [Payload.opens, hevent]
    exact .stored _ (Or.inl hopens)
  | announce s tool input hprior => exact .stored _ (Or.inr ⟨s, hprior, _, rfl⟩)
  | finale source => exact .ended source
  | prompt | useTool | finish | request | answer => exact .shown _

theorem Makes.isKept (h : o.Makes prior made) (hprior : ∀ s ∈ prior, s.IsKept p)
    (hnow : p o.now.localTime) : ∀ s ∈ made.session, s.IsKept p := by
  cases h with
  | nothing => exact hprior
  | start trigger => exact forall_mem_some (Session.isKept_started prior trigger o.payload hnow)
  | prompt text => exact forall_mem_some ((Session.isKept_prompted hprior o.payload hnow).record _)
  | announce s tool input hs => exact forall_mem_some ((hprior s hs).announce hnow tool input)
  | useTool s tool input response hs =>
    exact forall_mem_some ((hprior s hs).useTool hnow tool input response)
  | finish s pending hs => exact forall_mem_some ((hprior s hs).finishSubagent pending _)
  | request s tool input hs => exact forall_mem_some ((hprior s hs).record _)
  | answer s hs => exact forall_mem_some ((hprior s hs).answer _ _ _)
  | finale source => exact hprior

end Occurrence

/-! ### Runs -/

namespace Session

variable {p : Session → Prop} {prior : Option Session}

/-- The next session is the one before or that of the transition. -/
theorem forall_next {o : Occurrence} (hprior : ∀ s ∈ prior, p s)
    (hmade : ∀ t ∈ (o.transition prior).session, p t) : ∀ t ∈ next prior o, p t := by
  rw [next, Transition.left.eq_def]
  split
  · exact hprior
  · exact hmade
  · exact forall_mem_none _

/-- What every transition of a run keeps holds of the session that the run leaves open. -/
theorem forall_after {run : List Occurrence}
    (hmade : ∀ prior, ∀ o ∈ run, ∀ made, Occurrence.Makes prior o made →
      (∀ s ∈ prior, p s) → ∀ t ∈ made.session, p t)
    (hprior : ∀ s ∈ prior, p s) : ∀ s ∈ after prior run, p s := by
  induction run generalizing prior with
  | nil => exact hprior
  | cons o run ih =>
    rw [after_cons]
    have hnext := forall_next hprior (hmade prior o List.mem_cons_self _ (o.makes prior) hprior)
    exact ih (fun prior o ho => hmade prior o (List.mem_cons_of_mem _ ho)) hnext

end Session

end SessionLog
