/-
  SessionLog/Proofs/Closing.lean
  ==============================
  **After its end a session is closed, and nothing brings it back.**

  The end of a session writes a last snapshot and then clears the state file. Whether the
  snapshot could be written does not matter, but the handling must come that far: where the
  session has to be counted anew and its start is not in the calendar as told in UTC, it
  breaks off and clears nothing. From a cleared state file only a start or a prompt leads to a
  session, which has nothing of the one before.
-/
import SessionLog.Proofs.Footprint
import SessionLog.Proofs.Session.Counting
import SessionLog.Proofs.StateFile.Replacement

namespace SessionLog

open FileTree

/-- The state file has been cleared, and nothing was written to it since. -/
def IsClosed (layout : Layout) (tree : FileTree) : Prop :=
  tree.read? layout.stateFile = some (Utf8.encode StateFile.closedText)

instance (layout : Layout) (tree : FileTree) : Decidable (IsClosed layout tree) :=
  inferInstanceAs (Decidable (_ = _))

variable {tree : FileTree} {layout : Layout}

namespace IsClosed

/-- No session is read from a cleared state file. -/
theorem read_eq (h : IsClosed layout tree) :
    (StateFile.read tree layout.stateFile).1 = none := by
  unfold IsClosed at h
  rw [StateFile.read_eq_ofText h, StateFile.ofText_closedText]

/-- Clearing again leaves the file cleared, whether or not it succeeds. -/
theorem clear (h : IsClosed layout tree) :
    IsClosed layout (StateFile.replace tree layout.stateFile StateFile.closedText).1 := by
  unfold IsClosed at h ⊢
  rcases hreplace : StateFile.replace tree layout.stateFile StateFile.closedText with
    ⟨left, error | done⟩
  · -- a replacement that fails may have made directories, but it writes no file
    have hkeeps := (StateFile.changes_of_replace_error hreplace).keeps
    apply hkeeps.read? h
    intro place _ hfalse
    exact hfalse
  · exact StateFile.read?_of_replace hreplace

end IsClosed

/-! ### The end of a session -/

namespace Handler

variable {settings : Settings} {now : Moment}

/-- Whatever became of the snapshot, the state file can be replaced after it. -/
theorem replaceable_presented {transition : Transition} {presented : FileTree × Journal}
    (h : StateFile.Replaceable tree layout.stateFile)
    (hpresent : present? tree layout settings now transition = some presented) :
    StateFile.Replaceable presented.1 layout.stateFile := by
  rcases presented_cases hpresent with hsame | ⟨s, -, text, hwritten⟩
  · rw [hsame]
    exact h
  · rw [hwritten]
    exact h.writeDocument s text

/-- Without a session there is nothing to write. -/
@[simp] theorem present?_none (tree : FileTree) (layout : Layout) (settings : Settings)
    (now : Moment) (stateWrite : StateWrite) (source : Option TokenSource) :
    present? tree layout settings now ⟨none, stateWrite, source⟩ = some (tree, []) := by
  rw [present?.eq_def]
  cases source with
  | none => rfl
  | some source => rfl

/-- The counts of a last snapshot cannot be had exactly if they have to be counted anew, in
    a transcript that is there, and the start cannot be told in UTC. -/
theorem present?_eq_none_iff (tree : FileTree) (layout : Layout) (settings : Settings)
    (now : Moment) (s : Session) :
    present? tree layout settings now
        ⟨some s, .reset, some (if s.tokens.hasActivity then .counted else .recounted)⟩ = none ↔
      s.tokens.hasActivity = false ∧
        (Transcript.find? tree.read? s.transcriptPath).isSome = true ∧
        Transcript.startUtc? s.start now.offset = none := by
  rw [present?.eq_def]
  simp only [Option.map_eq_none_iff]
  cases s.tokens.hasActivity with
  | true => simp [Session.counts?]
  | false =>
    simp only [Bool.false_eq_true, if_false, true_and, Session.counts?, Option.map_eq_none_iff]
    rw [Transcript.recountIn?.eq_def]
    cases Transcript.find? tree.read? s.transcriptPath with
    | none => simp
    | some octets => simp [Transcript.recount?]

end Handler

namespace Visit

variable {v : Visit} {prior : Option Session}

/-- The session in the state file has nothing counted, so its end counts it anew. Its
    transcript is there, but its start cannot be told in UTC. -/
def LacksStart (layout : Layout) (v : Visit) : Prop :=
  ∃ s ∈ (StateFile.read v.found layout.stateFile).1, s.tokens.hasActivity = false ∧
    (Transcript.find? v.found.read? s.transcriptPath).isSome = true ∧
    Transcript.startUtc? s.start v.now.offset = none

theorem tree_outcome (hprior : (StateFile.read v.found layout.stateFile).1 = prior) :
    (v.outcome layout).tree = (v.committed layout prior).tree := by
  rw [outcome_eq hprior]

/-- The end of a session resets the state file, with a snapshot or without. -/
theorem exists_source_of_sessionEnd (hend : v.payload.event? = some .sessionEnd)
    (prior : Option Session) :
    ∃ source, v.occurrence.transition prior = ⟨prior, .reset, source⟩ := by
  rw [Occurrence.transition, Transition.ofPayload, occurrence, hend]
  cases prior with
  | none => exact ⟨none, rfl⟩
  | some s => exact ⟨some _, rfl⟩

theorem present?_sessionEnd_eq_none_iff (hend : v.payload.event? = some .sessionEnd)
    (hprior : (StateFile.read v.found layout.stateFile).1 = prior) :
    Handler.present? v.found layout v.settings v.now (v.occurrence.transition prior) = none ↔
      v.LacksStart layout := by
  rw [LacksStart, hprior]
  cases prior with
  | none =>
    obtain ⟨source, htransition⟩ := exists_source_of_sessionEnd hend none
    rw [htransition, Handler.present?_none]
    simp
  | some s =>
    rw [Occurrence.transition_of_sessionEnd hend, Handler.present?_eq_none_iff]
    simp

theorem isClosed_of_sessionEnd (hend : v.payload.event? = some .sessionEnd)
    (hreplaceable : StateFile.Replaceable v.found layout.stateFile)
    (hstart : ¬v.LacksStart layout) : IsClosed layout (v.outcome layout).tree := by
  rw [← present?_sessionEnd_eq_none_iff hend rfl] at hstart
  obtain ⟨source, htransition⟩ :=
    exists_source_of_sessionEnd hend (StateFile.read v.found layout.stateFile).1
  rw [htransition] at hstart
  rw [tree_outcome rfl, committed, htransition]
  obtain ⟨⟨presented, told⟩, hpresent⟩ := Option.ne_none_iff_exists'.1 hstart
  -- what has to be replaceable is what the snapshot has left
  have hclear := Handler.replaceable_presented hreplaceable hpresent StateFile.closedText
  exact Handler.read?_commit_ended hpresent hclear

/-- An end that breaks off changes nothing at all. -/
theorem tree_outcome_of_lacksStart (hend : v.payload.event? = some .sessionEnd)
    (hstart : v.LacksStart layout) : (v.outcome layout).tree = v.found := by
  have hpresent := (present?_sessionEnd_eq_none_iff hend rfl).2 hstart
  obtain ⟨source, htransition⟩ :=
    exists_source_of_sessionEnd hend (StateFile.read v.found layout.stateFile).1
  rw [tree_outcome rfl, committed, htransition]
  rw [htransition] at hpresent
  rw [Handler.commit_brokenOff hpresent]

theorem isClosed_iff_of_sessionEnd (hend : v.payload.event? = some .sessionEnd)
    (hreplaceable : StateFile.Replaceable v.found layout.stateFile) :
    IsClosed layout (v.outcome layout).tree ↔ ¬v.LacksStart layout := by
  constructor
  · intro hclosed hstart
    have hread := hclosed.read_eq
    rw [tree_outcome_of_lacksStart hend hstart] at hread
    obtain ⟨s, hs, -⟩ := hstart
    rw [hread] at hs
    cases hs
  · exact isClosed_of_sessionEnd hend hreplaceable

/-! ### What is wrong with the disk -/

@[simp] theorem faults_outcome (layout : Layout) (v : Visit) :
    (v.outcome layout).tree.faults = v.found.faults := by
  obtain ⟨transition, -, htree⟩ :=
    Handler.exists_commit v.found layout v.settings v.now v.payload
  have htouches := Handler.touches_commit v.found layout v.settings v.now transition
  rw [outcome, htree]
  exact htouches.faults

/-- No event mends or breaks the disk. -/
@[simp] theorem faults_filesAfter_consecutive (layout : Layout) (tree : FileTree)
    (events : List (Payload × Settings × Moment)) :
    (filesAfter layout tree (consecutive layout tree events)).faults = tree.faults := by
  induction events generalizing tree with
  | nil => rfl
  | cons event events ih =>
    obtain ⟨payload, settings, now⟩ := event
    rw [consecutive, filesAfter_cons, ih, faults_outcome]

/-! ### Events after that -/

/-- An event that opens no session leaves a cleared state file cleared. The cases are the
    shapes of transitions, and none of them has a session. -/
theorem isClosed_outcome (hclosed : IsClosed layout v.found)
    (hopens : v.payload.opens none = false) : IsClosed layout (v.outcome layout).tree := by
  have hmakes := v.occurrence.makes none
  have hshape := hmakes.shape
  have hnone := hmakes.session_eq_none hopens
  rw [tree_outcome hclosed.read_eq, committed]
  generalize v.occurrence.transition none = transition at hshape hnone ⊢
  cases hshape with
  | unchanged =>
    rw [Handler.commit_unchanged]
    exact hclosed
  | stored s => cases hnone
  | shown s => cases hnone
  | ended source =>
    have hpresent := Handler.present?_none v.found layout v.settings v.now .reset source
    rw [Handler.commit_ended hpresent]
    simp only [Handler.clearSession_fst]
    exact hclosed.clear

/-- No snapshot is due without a session, so nothing but the state file is touched. -/
theorem touches_outcome (hclosed : IsClosed layout v.found)
    (hopens : v.payload.opens none = false) :
    Touches [layout.stateFile] v.found (v.outcome layout).tree := by
  have hnone := (v.occurrence.makes none).session_eq_none hopens
  have htouches := Handler.touches_commit v.found layout v.settings v.now
    (v.occurrence.transition none)
  have hown : Handler.ownPaths layout (v.occurrence.transition none) = [layout.stateFile] := by
    have hdue : (v.occurrence.transition none).due? = none := by
      rw [Transition.due?, hnone, Option.bind_fun_none]
    rw [Handler.ownPaths, hdue]
  rw [hown] at htouches
  rw [tree_outcome hclosed.read_eq, committed]
  exact htouches

theorem sameFileAt_outcome {place : Location} (hclosed : IsClosed layout v.found)
    (hopens : v.payload.opens none = false)
    (hplace : (v.outcome layout).tree.locate layout.stateFile ≠ .ok place) :
    SameFileAt place v.found (v.outcome layout).tree := by
  apply (touches_outcome hclosed hopens).sameFileAt
  intro path hpath
  rw [List.mem_singleton.1 hpath]
  exact hplace

/-- In particular no snapshot is touched, for none has the name of the state file. -/
theorem sameFileAt_snapshot_outcome {s : Session} {place : Location}
    (hclosed : IsClosed layout v.found) (hopens : v.payload.opens none = false)
    (hlocate : (v.outcome layout).tree.locate (Snapshot.path layout s) = .ok place) :
    SameFileAt place v.found (v.outcome layout).tree := by
  apply sameFileAt_outcome hclosed hopens
  intro hsame
  have hstate := Layout.isNamed_stateFile hsame
  have hsnapshot := Snapshot.isNamed_path hlocate
  exact Snapshot.name_ne (by decide) s (hsnapshot.unique hstate)

/-- The induction is on the run: each visit finds the state file cleared and leaves it so. -/
theorem isClosed_filesAfter {run : List Visit} (hclosed : IsClosed layout tree)
    (hrun : Undisturbed layout (fun path => path = layout.stateFile) tree run)
    (hopens : ∀ w ∈ run, w.payload.opens none = false) :
    IsClosed layout (filesAfter layout tree run) ∧ ∀ w ∈ run, IsClosed layout w.found := by
  induction run generalizing tree with
  | nil => exact ⟨hclosed, fun w hw => (List.not_mem_nil hw).elim⟩
  | cons v run ih =>
    obtain ⟨hfound, hrest⟩ := hrun
    rw [List.forall_mem_cons] at hopens ⊢
    have hclosed' : IsClosed layout v.found := (hfound _ rfl).trans hclosed
    have hleft := isClosed_outcome hclosed' hopens.1
    obtain ⟨hafter, hall⟩ := ih hleft hrest hopens.2
    rw [filesAfter_cons]
    exact ⟨hafter, hclosed', hall⟩

/-! ### The next session -/

/-- A session that an event stores is read from the state file after it, if the state file
    can be replaced. -/
theorem read_outcome_of_stores {s : Session} (hclosed : IsClosed layout v.found)
    (hreplaceable : StateFile.Replaceable v.found layout.stateFile)
    (hstores : v.occurrence.transition none = .stored s ∨
      v.occurrence.transition none = .shown s) :
    (StateFile.read (v.outcome layout).tree layout.stateFile).1 = some s := by
  have hkept : ∀ s ∈ (v.occurrence.transition none).session,
      s.IsKept fun t => t.time.LeapEndsMinute :=
    (v.occurrence.makes none).isKept (forall_mem_none _) v.now.leapEndsMinute
  have hstore := hreplaceable s.text
  rw [tree_outcome hclosed.read_eq, committed]
  rcases hstores with hstored | hshown
  · rw [hstored] at hkept ⊢
    rw [StateFile.read_eq_ofText (Handler.read?_commit_stored hstore),
      StateFile.ofText_text (hkept s rfl)]
  · rw [hshown] at hkept ⊢
    rw [StateFile.read_eq_ofText (Handler.read?_commit_shown hstore),
      StateFile.ofText_text (hkept s rfl)]

/-- A start finds no session whose timeline could go on, whatever triggers it. -/
theorem read_outcome_of_sessionStart {trigger : String} (hclosed : IsClosed layout v.found)
    (hreplaceable : StateFile.Replaceable v.found layout.stateFile)
    (hevent : v.payload.event? = some (.sessionStart trigger)) :
    (StateFile.read (v.outcome layout).tree layout.stateFile).1 =
      some (.ofPayload v.payload v.now) := by
  apply read_outcome_of_stores hclosed hreplaceable
  left
  rw [Occurrence.transition, Transition.ofPayload, occurrence, hevent]
  rfl

theorem read_outcome_of_prompt {text : String} (hclosed : IsClosed layout v.found)
    (hreplaceable : StateFile.Replaceable v.found layout.stateFile)
    (hevent : v.payload.event? = some (.userPromptSubmit text)) :
    (StateFile.read (v.outcome layout).tree layout.stateFile).1 =
      some ((Session.ofPayload v.payload v.now).record
        (.prompt (Session.stamp v.now.localTime) text)) := by
  apply read_outcome_of_stores hclosed hreplaceable
  right
  rw [Occurrence.transition, Transition.ofPayload, occurrence, hevent]
  rfl

end Visit

/-- Where the state file can be replaced, it is cleared by the end of a session, whether or
    not the last snapshot and the schema can be written, unless the session has to be counted
    anew and its start cannot be told in UTC: then no file is different at all. From a
    cleared state file on, as long as nobody else writes it, every run of events without a
    start and a prompt leaves it cleared. It writes no other file, in particular no snapshot,
    whether or not the file can be cleared again. The next start, whatever triggers it, leaves
    a session without a timeline, and the next prompt one with this prompt alone. -/
theorem session_end_closes (layout : Layout) (v : Visit)
    (hend : v.payload.event? = some .sessionEnd)
    (hreplaceable : StateFile.Replaceable v.found layout.stateFile) :
    let after := (v.outcome layout).tree
    (IsClosed layout after ↔ ¬v.LacksStart layout) ∧
    (v.LacksStart layout → after = v.found) ∧
    (IsClosed layout after → ∀ run : List Visit,
      Visit.Undisturbed layout (fun path => path = layout.stateFile) after run →
      (∀ w ∈ run, w.payload.opens none = false) →
      let last := Visit.filesAfter layout after run
      IsClosed layout last ∧
      (∀ w ∈ run, ∀ place, (w.outcome layout).tree.locate layout.stateFile ≠ .ok place →
        SameFileAt place w.found (w.outcome layout).tree) ∧
      (∀ w ∈ run, ∀ (s : Session) (place : Location),
        (w.outcome layout).tree.locate (Snapshot.path layout s) = .ok place →
        SameFileAt place w.found (w.outcome layout).tree) ∧
      ∀ next : Visit, next.found.read? layout.stateFile = last.read? layout.stateFile →
        StateFile.Replaceable next.found layout.stateFile →
        (∀ trigger, next.payload.event? = some (.sessionStart trigger) →
          ∃ s, (StateFile.read (next.outcome layout).tree layout.stateFile).1 = some s ∧
            s.timeline = []) ∧
        ∀ text, next.payload.event? = some (.userPromptSubmit text) →
          ∃ s, (StateFile.read (next.outcome layout).tree layout.stateFile).1 = some s ∧
            s.timeline = [.prompt (Session.stamp next.now.localTime) text]) := by
  intro after
  refine ⟨?_, ?_, ?_⟩
  · exact Visit.isClosed_iff_of_sessionEnd hend hreplaceable
  · exact Visit.tree_outcome_of_lacksStart hend
  · intro hclosed run hrun hopens last
    obtain ⟨hlast, hall⟩ := Visit.isClosed_filesAfter hclosed hrun hopens
    refine ⟨hlast, ?_, ?_, ?_⟩
    · intro w hw place hplace
      exact Visit.sameFileAt_outcome (hall w hw) (hopens w hw) hplace
    · intro w hw s place hlocate
      exact Visit.sameFileAt_snapshot_outcome (hall w hw) (hopens w hw) hlocate
    · intro next hfound hreplaceable
      have hclosed : IsClosed layout next.found := hfound.trans hlast
      constructor
      · intro trigger hevent
        exact ⟨_, Visit.read_outcome_of_sessionStart hclosed hreplaceable hevent, rfl⟩
      · intro text hevent
        exact ⟨_, Visit.read_outcome_of_prompt hclosed hreplaceable hevent, rfl⟩

/-- The end of a session, where a directory lies in place of its snapshot. -/
def endUnshown : Visit where
  payload := .named "SessionEnd"
  settings := .default
  now := .epoch
  found :=
    ((StateFile.store .bare (Layout.stateFile ⟨"/p"⟩) countedSession).1.makeDirectories
      (Snapshot.path ⟨"/p"⟩ countedSession)).1

/-- It ends again and stops after that. -/
def endedAgain : List Visit :=
  Visit.consecutive ⟨"/p"⟩ (endUnshown.outcome ⟨"/p"⟩).tree
    [(.named "SessionEnd", .default, .epoch), (.named "Stop", .default, .epoch)]

/-- A startup on the same transcript. -/
def startedAgain : Visit where
  payload :=
    { Payload.named "SessionStart" with trigger := some "startup", transcriptPath := some "t" }
  settings := .default
  now := .epoch
  found := Visit.filesAfter ⟨"/p"⟩ (endUnshown.outcome ⟨"/p"⟩).tree endedAgain

theorem session_end_closes_unshown :
    .snapshotNotWritten ∈ (endUnshown.outcome ⟨"/p"⟩).journal ∧
      IsClosed ⟨"/p"⟩ startedAgain.found ∧
      ∃ s, (StateFile.read (startedAgain.outcome ⟨"/p"⟩).tree (Layout.stateFile ⟨"/p"⟩)).1 =
        some s ∧ s.timeline = [] := by
  have hsound : endUnshown.found.faults = [] := by decide +kernel
  have hreplaceable : StateFile.Replaceable endUnshown.found (Layout.stateFile ⟨"/p"⟩) :=
    StateFile.replaceable_of_clear hsound (by decide +kernel)
  have hstart : ¬endUnshown.LacksStart ⟨"/p"⟩ := by
    have hread : (StateFile.read endUnshown.found (Layout.stateFile ⟨"/p"⟩)).1 =
        some countedSession := by decide +kernel
    rintro ⟨s, hs, hnothing, -, -⟩
    rw [hread] at hs
    obtain rfl := Option.some.inj hs
    exact absurd hnothing (by decide)
  obtain ⟨hcloses, -, hafter⟩ := session_end_closes ⟨"/p"⟩ endUnshown rfl hreplaceable
  have hrun : Visit.Undisturbed ⟨"/p"⟩ (fun path => path = Layout.stateFile ⟨"/p"⟩)
      (endUnshown.outcome ⟨"/p"⟩).tree endedAgain := Visit.undisturbed_consecutive _ _ _ _
  have hopens : ∀ w ∈ endedAgain, w.payload.opens none = false := by
    simp only [endedAgain, Visit.consecutive, List.forall_mem_cons, List.not_mem_nil,
      false_implies, implies_true, and_true]
    decide
  obtain ⟨hclosed, -, -, hnext⟩ := hafter (hcloses.2 hstart) endedAgain hrun hopens
  have hunshown : .snapshotNotWritten ∈ (endUnshown.outcome ⟨"/p"⟩).journal := by decide +kernel
  have hfaults : startedAgain.found.faults = endUnshown.found.faults := by
    rw [startedAgain, endedAgain, Visit.faults_filesAfter_consecutive, Visit.faults_outcome]
  have hagain : StateFile.Replaceable startedAgain.found (Layout.stateFile ⟨"/p"⟩) :=
    StateFile.replaceable_of_clear (hfaults.trans hsound) (by decide +kernel)
  have hfound : startedAgain.found =
      Visit.filesAfter ⟨"/p"⟩ (endUnshown.outcome ⟨"/p"⟩).tree endedAgain := by rw [startedAgain]
  have hevent : startedAgain.payload.event? = some (.sessionStart "startup") := rfl
  rw [← hfound] at hclosed hnext
  obtain ⟨hstarts, -⟩ := hnext startedAgain rfl hagain
  exact ⟨hunshown, hclosed, hstarts "startup" hevent⟩

/-- A session that starts when the calendar does. -/
def firstSession : Session :=
  .fresh ⟨⟨minYear, 1, 1, by decide⟩, DateTime.epoch.time⟩ "" "t" "" ""

/-- Its end, two hours ahead of UTC, with nothing in its transcript. -/
def endOfFirst : Visit where
  payload := .named "SessionEnd"
  settings := .default
  now := { Moment.epoch with offset := ⟨7200, by decide, by decide⟩, inCalendar := by decide }
  found :=
    let stored := (StateFile.store .bare (Layout.stateFile ⟨"/p"⟩) firstSession).1
    (stored.write "t" []).1

theorem not_closed_by_end_of_first :
    endOfFirst.payload.event? = some .sessionEnd ∧
      StateFile.Replaceable endOfFirst.found (Layout.stateFile ⟨"/p"⟩) ∧
      ¬IsClosed ⟨"/p"⟩ (endOfFirst.outcome ⟨"/p"⟩).tree :=
  ⟨rfl, StateFile.replaceable_of_clear (by decide +kernel) (by decide +kernel),
    by decide +kernel⟩

end SessionLog
