/-
  SessionLog/Proofs/Session/Growth.lean
  =====================================
  **Within a session the record only grows.**

  An event that opens no session leaves the open one what it was: of the same version,
  with the same start, on the same transcript and in the same project. What has been
  collected stays as it is, in its order, and gets one entry and one file name at most. No
  count of tokens becomes less, and the watermark does not go back.

  The start and the transcript name the snapshot of a session. So until another session is
  opened, all snapshots are written to one file.
-/
import SessionLog.Proofs.Session.History
import SessionLog.Proofs.Text.Utf8.Order
import SessionLog.Proofs.Tokens.Saturation
import SessionLog.Proofs.Transcript.Increment
import SessionLog.Proofs.Visit

namespace SessionLog

namespace Session

/-! ### What stays -/

/-- What a session is told by. -/
structure SameIdentity (s t : Session) : Prop where
  version : t.version = s.version
  start : t.start = s.start
  id : t.id = s.id
  transcriptPath : t.transcriptPath = s.transcriptPath
  projectRoot : t.projectRoot = s.projectRoot

namespace SameIdentity

theorem refl (s : Session) : s.SameIdentity s := ⟨rfl, rfl, rfl, rfl, rfl⟩

theorem trans {s t u : Session} (h : s.SameIdentity t) (h' : t.SameIdentity u) :
    s.SameIdentity u where
  version := h'.version.trans h.version
  start := h'.start.trans h.start
  id := h'.id.trans h.id
  transcriptPath := h'.transcriptPath.trans h.transcriptPath
  projectRoot := h'.projectRoot.trans h.projectRoot

theorem path_eq {s t : Session} (h : s.SameIdentity t) (layout : Layout) :
    Snapshot.path layout t = Snapshot.path layout s := by
  rw [Snapshot.path, Snapshot.path, h.start, h.transcriptPath]

end SameIdentity

/-! ### What grows -/

/-- A session after an event within it. Failures are counted as long as there is room for
    one more; watermarks compare octet by octet. -/
structure Grows (s t : Session) : Prop where
  identity : s.SameIdentity t
  timeline : ∃ entry : Option TimelineEntry, t.timeline = s.timeline ++ entry.toList
  filesModified : ∃ name : Option String, t.filesModified = s.filesModified ++ name.toList
  errorCount : s.errorCount.toNat < Tokens.maxCount →
    t.errorCount.toNat = s.errorCount.toNat ∨ t.errorCount.toNat = s.errorCount.toNat + 1
  tokens : s.tokens ≤ t.tokens
  watermark : Utf8.encode s.watermark.toList ≤ Utf8.encode t.watermark.toList

theorem exists_withName (names : List String) (name : String) :
    ∃ added : Option String, withName names name = names ++ added.toList := by
  rw [withName]
  split
  · exact ⟨none, (List.append_nil _).symm⟩
  · exact ⟨some name, rfl⟩

theorem toNat_add_one {n : UInt64} (h : n.toNat < Tokens.maxCount) :
    (n + 1).toNat = n.toNat + 1 := by
  simp only [Tokens.maxCount] at h
  rw [UInt64.toNat_add, UInt64.toNat_one, Nat.mod_eq_of_lt (by omega)]

namespace Grows

/-- The markers are no part of what is collected. -/
theorem marked (s : Session) (tool : Option PendingTool) (subagent : Option PendingSubagent) :
    s.Grows { s with pendingTool := tool, pendingSubagent := subagent } where
  identity := ⟨rfl, rfl, rfl, rfl, rfl⟩
  timeline := ⟨none, (List.append_nil _).symm⟩
  filesModified := ⟨none, (List.append_nil _).symm⟩
  errorCount _ := Or.inl rfl
  tokens := Tokens.le_refl _
  watermark := List.le_refl _

theorem refl (s : Session) : s.Grows s := marked s s.pendingTool s.pendingSubagent

theorem recorded (s : Session) (entry : TimelineEntry) (subagent : Option PendingSubagent) :
    s.Grows { s.record entry with pendingSubagent := subagent } where
  identity := ⟨rfl, rfl, rfl, rfl, rfl⟩
  timeline := ⟨some entry, rfl⟩
  filesModified := ⟨none, (List.append_nil _).symm⟩
  errorCount _ := Or.inl rfl
  tokens := Tokens.le_refl _
  watermark := List.le_refl _

theorem useTool (s : Session) (tool : String) (input : Json) (response : Option Json)
    (time : DateTime) : s.Grows (s.useTool tool input response time) := by
  have hfiles (modified : Bool) (name : String) : ∃ added : Option String,
      (if modified then withName s.filesModified name else s.filesModified) =
        s.filesModified ++ added.toList := by
    split
    · exact exists_withName _ _
    · exact ⟨none, (List.append_nil _).symm⟩
  have herrors (failed : Bool) (hroom : s.errorCount.toNat < Tokens.maxCount) :
      (if failed then s.errorCount + 1 else s.errorCount).toNat = s.errorCount.toNat ∨
      (if failed then s.errorCount + 1 else s.errorCount).toNat = s.errorCount.toNat + 1 := by
    split
    · exact Or.inr (toNat_add_one hroom)
    · exact Or.inl rfl
  rw [useTool_eq]
  exact {
    identity := ⟨rfl, rfl, rfl, rfl, rfl⟩
    timeline := ⟨some _, rfl⟩
    filesModified := hfiles _ _
    errorCount := herrors _
    tokens := Tokens.le_refl _
    watermark := List.le_refl _ }

theorem answer (s : Session) (settings : Settings) (transcript : Option (List UInt8))
    (time : DateTime) : s.Grows (s.answer settings transcript time) := by
  have hwatermark (new : Transcript.Increment) (h : s.watermark ≤ new.watermark) :
      Utf8.encode s.watermark.toList ≤ Utf8.encode (s.takeIn new).watermark.toList := by
    have htaken : (s.takeIn new).watermark =
        if new.watermark = "" then s.watermark else new.watermark := rfl
    rw [Utf8.encode_toList_le_iff, htaken]
    split
    · exact String.le_refl _
    · exact h
  rw [answer_eq]
  exact {
    identity := ⟨rfl, rfl, rfl, rfl, rfl⟩
    timeline := ⟨_, rfl⟩
    filesModified := ⟨none, (List.append_nil _).symm⟩
    errorCount := fun _ => Or.inl rfl
    tokens := Tokens.le_add_right _ _
    watermark := hwatermark _ (Transcript.watermark_le_incrementIn _ _) }

end Grows

end Session

/-! ### Events -/

namespace Occurrence

variable {o : Occurrence} {s : Session}

/-- What a transition leaves of the open session is that session, grown. The cases are what
    an event can do. -/
theorem Makes.grows {made : Transition} (hmade : o.Makes (some s) made)
    (h : o.payload.opens (some s) = false) : ∃ t, made.session = some t ∧ s.Grows t := by
  cases hmade with
  | nothing _ => exact ⟨s, rfl, .refl s⟩
  | start trigger hevent =>
    rw [Payload.opens, hevent] at h
    cases h
  | prompt text hevent =>
    refine ⟨_, rfl, ?_⟩
    rw [Session.prompted, if_pos (Payload.transcript_eq_of_prompt hevent h)]
    exact .recorded s _ s.pendingSubagent
  | announce s' tool input hs _ _ =>
    cases hs
    exact ⟨_, rfl, .marked s _ s.pendingSubagent⟩
  | useTool s' tool input response hs _ _ =>
    cases hs
    exact ⟨_, rfl, .useTool s tool input response _⟩
  | finish s' pending hs _ _ =>
    cases hs
    exact ⟨_, rfl, .recorded s _ none⟩
  | request s' tool input hs _ =>
    cases hs
    exact ⟨_, rfl, .recorded s _ s.pendingSubagent⟩
  | answer s' hs _ =>
    cases hs
    exact ⟨_, rfl, .answer s _ _ _⟩
  | finale source _ => exact ⟨s, rfl, .refl s⟩

end Occurrence

/-! ### Runs -/

namespace Session

/-- No event of a run opens a session. -/
def OpensNone (prior : Option Session) (run : List Occurrence) : Prop :=
  ∀ event ∈ history prior run, event.2.payload.opens event.1 = false

instance (prior : Option Session) (run : List Occurrence) : Decidable (OpensNone prior run) :=
  inferInstanceAs (Decidable (∀ event ∈ history prior run, _ = _))

variable {s : Session} {prior : Option Session}

theorem sameIdentity_of_transition {o : Occurrence} (hprior : ∀ u ∈ prior, s.SameIdentity u)
    (h : o.payload.opens prior = false) :
    ∀ t ∈ (o.transition prior).session, s.SameIdentity t := by
  intro t ht
  cases prior with
  | none =>
    rw [(o.makes none).session_eq_none h] at ht
    cases ht
  | some u =>
    obtain ⟨grown, hsession, hgrows⟩ := (o.makes (some u)).grows h
    rw [hsession] at ht
    cases ht
    exact (hprior u rfl).trans hgrows.identity

theorem sameIdentity_next {o : Occurrence} (hprior : ∀ u ∈ prior, s.SameIdentity u)
    (h : o.payload.opens prior = false) : ∀ t ∈ next prior o, s.SameIdentity t :=
  forall_next hprior (sameIdentity_of_transition hprior h)

/-- The induction is on the run: an event leaves the first session open, or none. -/
theorem sameIdentity_of_mem_history {run : List Occurrence}
    (hprior : ∀ u ∈ prior, s.SameIdentity u) (hrun : OpensNone prior run) :
    ∀ event ∈ history prior run, ∀ u ∈ event.1, s.SameIdentity u := by
  induction run generalizing prior with
  | nil =>
    intro event hevent
    exact (List.not_mem_nil hevent).elim
  | cons o run ih =>
    rw [OpensNone, history, List.forall_mem_cons] at hrun
    rw [history, List.forall_mem_cons]
    exact ⟨hprior, ih (sameIdentity_next hprior hrun.1) hrun.2⟩

end Session

namespace Handler

/-- Whatever the files and the settings are, a snapshot that is written after a transition is
    written as a document at a path. -/
def PresentsAt (layout : Layout) (path : String) (transition : Transition) : Prop :=
  ∀ tree settings now presented,
    present? tree layout settings now transition = some presented →
      presented.1 = tree ∨
        ∃ text, presented.1 = (Snapshot.writeDocument tree layout path text).1

theorem presentsAt {layout : Layout} {path : String} {transition : Transition}
    (h : ∀ s ∈ transition.session, Snapshot.path layout s = path) :
    PresentsAt layout path transition := by
  intro tree settings now presented hpresent
  rcases presented_cases hpresent with hsame | ⟨s, hs, text, hwritten⟩
  · exact Or.inl hsame
  · right
    refine ⟨text, ?_⟩
    rw [hwritten, h s (Transition.session_of_due? hs)]

end Handler

/-- An event that opens no session leaves the open one, grown. Over a run of such events all
    snapshots are written at the path of that session, whatever the files and the settings
    are. -/
theorem session_grows (s : Session) :
    (∀ o : Occurrence, o.payload.opens (some s) = false →
      ∃ t, (o.transition (some s)).session = some t ∧ s.Grows t) ∧
    (∀ run : List Occurrence, Session.OpensNone (some s) run →
      ∀ layout, ∀ event ∈ Session.history (some s) run,
        Handler.PresentsAt layout (Snapshot.path layout s) (event.2.transition event.1)) := by
  constructor
  · intro o h
    exact (o.makes (some s)).grows h
  · intro run hrun layout event hevent
    have hsame : ∀ t ∈ some s, s.SameIdentity t := by
      intro t ht
      cases ht
      exact .refl s
    apply Handler.presentsAt
    intro t ht
    have hfound := Session.sameIdentity_of_mem_history hsame hrun event hevent
    exact (Session.sameIdentity_of_transition hfound (hrun event hevent) t ht).path_eq layout

/-- The host stops, a tool fails, and the session ends. -/
def stopToolAndEnd : List Occurrence :=
  [.named "Stop" (some (Utf8.encode "\x7b\"timestamp\":\"c\"\x7d\n".toList)),
    .ofTool "PostToolUse" "Edit" none (some (.object [("error", .string "e")])),
    .named "SessionEnd" none]

theorem session_grows_stopToolAndEnd :
    let s := Session.fresh .epoch "i" "t" "/p" "b"
    (∀ o ∈ stopToolAndEnd, ∃ t, (o.transition (some s)).session = some t ∧ s.Grows t) ∧
      ∀ layout, ∀ event ∈ Session.history (some s) stopToolAndEnd,
        Handler.PresentsAt layout (Snapshot.path layout s) (event.2.transition event.1) := by
  intro s
  obtain ⟨hgrows, hpresents⟩ := session_grows s
  have hopens : ∀ o ∈ stopToolAndEnd, o.payload.opens (some s) = false := by decide +kernel
  exact ⟨fun o ho => hgrows o (hopens o ho), hpresents stopToolAndEnd (by decide +kernel)⟩

end SessionLog
