/-
  SessionLog/Proofs/Session/History.lean
  ======================================
  **What a session holds is a matter of the events since it was opened.**

  A session is opened with nothing in it but what the payload says, at most with the
  timeline of the one before. From then on every event that it finds is a step of it. So a
  part of a session that a step changes by the event alone is a fold over the events since
  the session was opened, whatever happened before.
-/
import Mathlib.Data.List.DropRight
import SessionLog.Proofs.Session.Invariant

namespace SessionLog

/-! ### Events that open a session -/

theorem Payload.opens_cases {payload : Payload} {prior : Option Session}
    (h : payload.opens prior = true) :
    (∃ trigger, payload.event? = some (.sessionStart trigger)) ∨
    ∃ text, payload.event? = some (.userPromptSubmit text) ∧
      ∀ s ∈ prior, s.transcriptPath ≠ payload.transcript := by
  rw [opens.eq_def] at h
  split at h
  · left
    exact ⟨_, ‹_›⟩
  · right
    refine ⟨_, ‹_›, ?_⟩
    rintro s rfl hpath
    simp [hpath] at h
  · cases h

theorem Payload.transcript_eq_of_prompt {payload : Payload} {s : Session} {text : String}
    (hevent : payload.event? = some (.userPromptSubmit text))
    (h : payload.opens (some s) = false) : s.transcriptPath = payload.transcript := by
  rw [opens, hevent] at h
  simpa only [Option.any_some, Bool.not_eq_eq_eq_not, Bool.not_false, decide_eq_true_eq] using h

/-- Without an open session there is none after an event that does not open one. -/
theorem Occurrence.Makes.session_eq_none {o : Occurrence} {made : Transition}
    (hmade : o.Makes none made) (h : o.payload.opens none = false) : made.session = none := by
  cases hmade with
  | nothing _ => rfl
  | start trigger hevent =>
    rw [Payload.opens, hevent] at h
    cases h
  | prompt text hevent =>
    rw [Payload.opens, hevent] at h
    cases h
  | announce s tool input hs _ _ => cases hs
  | useTool s tool input response hs _ _ => cases hs
  | finish s pending hs _ _ => cases hs
  | request s tool input hs _ => cases hs
  | answer s hs _ => cases hs
  | finale source _ => rfl

namespace Session

variable {prior : Option Session} {o : Occurrence} {s t : Session}

theorem next_of_start {trigger : String}
    (hevent : o.payload.event? = some (.sessionStart trigger)) :
    next prior o = some (started prior trigger o.payload o.now) := by
  rw [next, Occurrence.transition, Transition.ofPayload, hevent]
  rfl

/-- A prompt that belongs to no session before it opens one, and is the first entry there. -/
theorem next_of_prompt {text : String}
    (hevent : o.payload.event? = some (.userPromptSubmit text))
    (hother : ∀ s ∈ prior, s.transcriptPath ≠ o.payload.transcript) :
    next prior o =
      some ((ofPayload o.payload o.now).record (.prompt (stamp o.now.localTime) text)) := by
  have hprompted : prompted prior o.payload o.now = ofPayload o.payload o.now := by
    cases prior with
    | none => rfl
    | some s => exact if_neg (hother s rfl)
  rw [next, Occurrence.transition, Transition.ofPayload, hevent]
  simp only [Transition.ofEvent, hprompted]
  rfl

/-- A session that is opened has at most a timeline. -/
theorem next_of_opens (h : o.payload.opens prior = true) :
    ∃ timeline, next prior o = some { ofPayload o.payload o.now with timeline := timeline } := by
  rcases Payload.opens_cases h with ⟨trigger, hevent⟩ | ⟨text, hevent, hother⟩
  · obtain ⟨timeline, hstarted⟩ := started_eq prior trigger o.payload o.now
    exact ⟨timeline, by rw [next_of_start hevent, hstarted]⟩
  · exact ⟨_, next_of_prompt hevent hother⟩

/-! ### Events within a session -/

theorem next_none (h : o.payload.opens none = false) : next none o = none := by
  have hsession := (o.makes none).session_eq_none h
  rw [next, Transition.left.eq_def]
  split
  · rfl
  · exact hsession
  · rfl

theorem step_of_next (hopens : o.payload.opens (some s) = false) (h : next (some s) o = some t) :
    Step s o t := by
  have hstays : o.payload.staysIn s.transcriptPath = true := by
    rw [Payload.staysIn.eq_def]
    split
    · rename_i trigger hevent
      rw [Payload.opens, hevent] at hopens
      cases hopens
    · rename_i hevent
      rw [next, Occurrence.transition, Transition.ofPayload, hevent] at h
      cases h
    · rename_i text hevent
      exact decide_eq_true (Payload.transcript_eq_of_prompt hevent hopens).symm
    · rfl
  obtain ⟨stepped, hnext, hstep⟩ := exists_step hstays
  rw [hnext] at h
  cases h
  exact hstep

/-! ### Runs -/

theorem mem_of_mem_history {run : List Occurrence} {event : Option Session × Occurrence}
    (h : event ∈ history prior run) : event.2 ∈ run := by
  induction run generalizing prior with
  | nil => cases h
  | cons first run ih =>
    rw [history, List.mem_cons] at h
    rcases h with rfl | h
    · exact List.mem_cons_self
    · exact List.mem_cons_of_mem _ (ih h)

/-- What holds of a session when it is opened, and is kept by its steps, holds of the session
    that a run leaves open. The induction is on the run, from its end. -/
theorem after_induction {motive : List (Option Session × Occurrence) → Session → Prop}
    (opened : ∀ events prior o s, o.payload.opens prior = true → next prior o = some s →
      motive (events ++ [(prior, o)]) s)
    (step : ∀ events s o t, o.payload.opens (some s) = false → Step s o t → motive events s →
      motive (events ++ [(some s, o)]) t)
    {run : List Occurrence} (hs : after none run = some s) : motive (history none run) s := by
  induction run using List.reverseRecOn generalizing s with
  | nil => cases hs
  | append_singleton run o ih =>
    rw [after_concat] at hs
    rw [history_concat]
    cases hopens : o.payload.opens (after none run) with
    | true => exact opened _ _ _ _ hopens hs
    | false =>
      cases hprior : after none run with
      | none =>
        rw [hprior] at hopens hs
        rw [next_none hopens] at hs
        cases hs
      | some found =>
        rw [hprior] at hopens hs
        exact step _ _ _ _ hopens (step_of_next hopens hs) (ih hprior)

/-- The events after the last one that opened a session. -/
def sinceOpened (events : List (Option Session × Occurrence)) : List Occurrence :=
  (events.rtakeWhile fun event => !event.2.payload.opens event.1).map Prod.snd

theorem sinceOpened_concat (events : List (Option Session × Occurrence)) (prior : Option Session)
    (o : Occurrence) :
    sinceOpened (events ++ [(prior, o)]) =
      if o.payload.opens prior then [] else sinceOpened events ++ [o] := by
  rw [sinceOpened, List.rtakeWhile_concat]
  cases o.payload.opens prior with
  | true => rfl
  | false => simp [sinceOpened]

/-- The latest mark among some events, if nothing after it has ended it. -/
def latest? {α : Type} (ends : Occurrence → Bool) (mark? : Occurrence → Option α)
    (events : List Occurrence) : Option α :=
  (events.rtakeWhile fun o => !ends o).reverse.findSome? mark?

theorem latest?_concat {α : Type} (ends : Occurrence → Bool) (mark? : Occurrence → Option α)
    (events : List Occurrence) (o : Occurrence) :
    latest? ends mark? (events ++ [o]) =
      if ends o then none else (mark? o).or (latest? ends mark? events) := by
  rw [latest?, List.rtakeWhile_concat]
  cases ends o with
  | true => rfl
  | false =>
    simp only [Bool.not_false, if_true, Bool.false_eq_true, if_false, List.reverse_concat,
      List.findSome?_cons]
    cases mark? o with
    | none => rfl
    | some mark => rfl

/-- Read forwards, an event takes the mark away or puts another in its place. -/
theorem latest?_eq_foldl {α : Type} (ends : Occurrence → Bool) (mark? : Occurrence → Option α)
    (events : List Occurrence) :
    latest? ends mark? events =
      events.foldl (fun mark o => if ends o then none else (mark? o).or mark) none := by
  induction events using List.reverseRecOn with
  | nil => rfl
  | append_singleton events o ih =>
    rw [latest?_concat, List.foldl_append, ih]
    rfl

/-- A part of a session that has a value of its own when the session is opened, and is
    changed by a step as the event says. -/
structure Folds {α : Type} (part : Session → α) (initial : α) (update : α → Occurrence → α) :
    Prop where
  opened : ∀ payload now timeline,
    part { ofPayload payload now with timeline := timeline } = initial
  step : ∀ s o t, Step s o t → part t = update (part s) o

theorem Folds.after {α : Type} {part : Session → α} {initial : α}
    {update : α → Occurrence → α} (h : Folds part initial update) {run : List Occurrence}
    (hs : after none run = some s) :
    part s = (sinceOpened (history none run)).foldl update initial := by
  refine after_induction
    (motive := fun events s => part s = (sinceOpened events).foldl update initial) ?_ ?_ hs
  · intro events prior o s hopens hnext
    obtain ⟨timeline, hopened⟩ := next_of_opens hopens
    rw [hopened] at hnext
    cases hnext
    rw [sinceOpened_concat, if_pos hopens]
    exact h.opened _ _ _
  · intro events s o t hopens hstep hpart
    rw [sinceOpened_concat, hopens, if_neg Bool.false_ne_true, List.foldl_append, ← hpart]
    exact h.step _ _ _ hstep

/-- Where only some events change the part, those events alone decide. -/
theorem Folds.after_filterMap {α β : Type} {part : Session → α} {initial : α}
    {mark? : Occurrence → Option β} {update : α → β → α}
    (h : Folds part initial fun a o => (mark? o).elim a (update a)) {run : List Occurrence}
    (hs : Session.after none run = some s) :
    part s = ((sinceOpened (history none run)).filterMap mark?).foldl update initial := by
  rw [h.after hs, List.foldl_filterMap]
  congr 1
  funext a o
  cases mark? o <;> rfl

end Session

end SessionLog
