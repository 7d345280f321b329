/-
  SessionLog/Proofs/Snapshot/Shown.lean
  =====================================
  **The snapshot in the log shows the session in the state file.**

  The two files are written one after the other, and an announced tool is kept without a
  new snapshot. Still, once a session has been shown, its snapshot agrees with what the
  state file has of it until another session is opened: what is kept without being shown
  is no part of a snapshot, and does not move it to another path.
-/
import SessionLog.Proofs.Snapshot.Document
import SessionLog.Proofs.Visit

namespace SessionLog

namespace Snapshot

/-! ### Files that show a session -/

/-- What lies at the path of the snapshot of a session is a document that shows it. -/
def IsShown (layout : Layout) (tree : FileTree) (s : Session) : Prop :=
  ∃ octets text document, tree.read? (path layout s) = some octets ∧
    Utf8.decode? octets = some text ∧ Json.parse? text = some document ∧ Shows document s

variable {layout : Layout} {tree left : FileTree} {s : Session}

theorem IsShown.congr (h : IsShown layout tree s)
    (hread : left.read? (path layout s) = tree.read? (path layout s)) : IsShown layout left s := by
  obtain ⟨octets, text, document, hoctets, hrest⟩ := h
  exact ⟨octets, text, document, hread.trans hoctets, hrest⟩

theorem IsShown.announced (h : IsShown layout tree s) (pending : Option PendingTool) :
    IsShown layout tree { s with pendingTool := pending } := by
  obtain ⟨octets, text, document, hread, hdecode, hparse, hshows⟩ := h
  exact ⟨octets, text, document, hread, hdecode, hparse, hshows.announced pending⟩

theorem isShown_of_write {settings : Settings} {now : DateTime}
    (hstart : s.start.time.LeapEndsMinute)
    (h : (write tree layout settings s now).2.2 = .ok ()) :
    IsShown layout (write tree layout settings s now).1 s := by
  have hwrite : writeDocument tree layout (path layout s) (take s settings now).text =
      ((write tree layout settings s now).1, .ok ()) := by rw [← write_eq_writeDocument, h]
  obtain ⟨document, hparse, hshows⟩ := exists_parse?_text hstart settings now
  exact ⟨_, _, document, read?_writeDocument hwrite, Utf8.decode?_encode _, hparse, hshows⟩

/-- Another text in the state file, or an attempt at it, leaves every snapshot as it is. -/
theorem IsShown.replace (h : IsShown layout tree s) (text : List Char) :
    IsShown layout (StateFile.replace tree layout.stateFile text).1 s := by
  obtain ⟨octets, shown, document, hread, hrest⟩ := h
  have htouches := StateFile.touches_replace tree layout.stateFile text
  refine ⟨octets, shown, document, htouches.read? ?_ hread, hrest⟩
  intro own hown place hsnapshot hstate
  obtain rfl := List.mem_singleton.1 hown
  have hsame := (isNamed_path hsnapshot).unique (Layout.isNamed_stateFile hstate)
  exact name_ne (by decide) s hsame

end Snapshot

/-! ### What a transition does to a snapshot, by its shape -/

namespace Handler

variable {tree : FileTree} {layout : Layout} {settings : Settings} {now : Moment}

theorem not_mem_failure {ε : Type} {notice other : Notice} (hne : other ≠ notice)
    (result : Except ε Unit) : other ∉ failure notice result := by
  cases result with
  | error error => exact fun h => hne (List.mem_singleton.1 h)
  | ok done => exact List.not_mem_nil

theorem snapshotWritten_not_mem_commit_stored (s : Session) :
    .snapshotWritten ∉ (commit tree layout settings now (.stored s)).journal := by
  rw [commit_stored, storeSession.eq_def]
  simp only [List.append_nil]
  exact not_mem_failure (by decide) _

theorem isShown_commit_stored {s old : Session} (hold : Snapshot.IsShown layout tree old) :
    Snapshot.IsShown layout (commit tree layout settings now (.stored s)).tree old := by
  rw [commit_stored]
  simp only [storeSession_fst]
  exact hold.replace s.text

theorem isShown_commit_shown {s : Session} (hstart : s.start.time.LeapEndsMinute)
    (h : .snapshotNotWritten ∉ (commit tree layout settings now (.shown s)).journal) :
    Snapshot.IsShown layout (commit tree layout settings now (.shown s)).tree s := by
  rw [commit_shown] at h ⊢
  simp only [List.append_nil, List.mem_append, not_or, writeSnapshot.eq_def] at h
  simp only [writeSnapshot_fst]
  exact Snapshot.isShown_of_write hstart (ok_of_not_mem_failure h.2.2)

end Handler

/-! ### Visits -/

namespace Visit

variable {layout : Layout} {tree : FileTree} {v : Visit}

def writes (layout : Layout) (v : Visit) : Bool :=
  (v.outcome layout).journal.contains .snapshotWritten

def opens (layout : Layout) (v : Visit) : Bool :=
  v.payload.opens (StateFile.read v.found layout.stateFile).1

/-- Whether a snapshot has been written since the session that is open was opened, by the
    visit that opened it or by a later one. -/
def hasShown (layout : Layout) (shown : Bool) (run : List Visit) : Bool :=
  run.foldl (fun shown v => v.writes layout || shown && !v.opens layout) shown

theorem snapshotWritten_not_mem_announced (layout : Layout) (v : Visit) :
    .snapshotWritten ∉ v.announced layout := by
  have hjson (value : Json) : .snapshotWritten ∉ (StateFile.ofJson value).2 := by
    rw [StateFile.ofJson.eq_def]
    split
    · exact List.not_mem_nil
    · split
      · decide
      · split
        · exact List.not_mem_nil
        · decide
  have hread : .snapshotWritten ∉ (StateFile.read v.found layout.stateFile).2 := by
    rw [StateFile.read]
    split
    · exact List.not_mem_nil
    · rw [StateFile.ofText]
      split
      · exact List.not_mem_nil
      · split
        · decide
        · exact hjson _
  rw [announced, List.mem_append, not_or, Handler.announcement]
  refine ⟨hread, ?_⟩
  split <;> decide

/-! ### The invariant of a run -/

/-- The session in the state file comes from events, and is shown if a snapshot has been
    written since it was opened. -/
structure IsConsistent (layout : Layout) (tree : FileTree) (shown : Bool) : Prop where
  kept : ∀ s ∈ (StateFile.read tree layout.stateFile).1,
    s.IsKept fun t => t.time.LeapEndsMinute
  shows : shown = true → ∀ s ∈ (StateFile.read tree layout.stateFile).1,
    Snapshot.IsShown layout tree s

/-- The paths of the state file and of all snapshots. -/
def IsLogPath (layout : Layout) (path : String) : Prop :=
  path = layout.stateFile ∨ ∃ s, path = Snapshot.path layout s

theorem IsConsistent.congr {left : FileTree} {shown : Bool}
    (h : IsConsistent layout tree shown)
    (hread : ∀ path, IsLogPath layout path → left.read? path = tree.read? path) :
    IsConsistent layout left shown := by
  have hstate : StateFile.read left layout.stateFile = StateFile.read tree layout.stateFile := by
    rw [StateFile.read, StateFile.read, hread _ (Or.inl rfl)]
  constructor
  · rw [hstate]
    exact h.kept
  · intro hshown s hs
    rw [hstate] at hs
    exact (h.shows hshown s hs).congr (hread _ (Or.inr ⟨s, rfl⟩))

theorem isConsistent_of_read_none {shown : Bool}
    (h : (StateFile.read tree layout.stateFile).1 = none) : IsConsistent layout tree shown := by
  constructor
  · rw [h]
    exact forall_mem_none _
  · intro _
    rw [h]
    exact forall_mem_none _

theorem isConsistent_of_read_some {shown : Bool} {s : Session}
    (h : (StateFile.read tree layout.stateFile).1 = some s)
    (hkept : s.IsKept fun t => t.time.LeapEndsMinute)
    (hshows : shown = true → Snapshot.IsShown layout tree s) :
    IsConsistent layout tree shown := by
  constructor
  · intro t ht
    rw [h] at ht
    cases ht
    exact hkept
  · intro hshown t ht
    rw [h] at ht
    cases ht
    exact hshows hshown

/-- What a transition writes keeps the files consistent. The cases are the shapes of
    transitions. -/
theorem IsConsistent.commit {settings : Settings} {now : Moment} {payload : Payload}
    {transition : Transition} {shown shown' : Bool} (h : IsConsistent layout tree shown)
    (hshape : transition.Shape (StateFile.read tree layout.stateFile).1 payload)
    (hsession : ∀ s ∈ transition.session, s.IsKept fun t => t.time.LeapEndsMinute)
    (hstored : .stateNotStored ∉ (Handler.commit tree layout settings now transition).journal)
    (hcleared : .stateNotCleared ∉ (Handler.commit tree layout settings now transition).journal)
    (hwritten :
      .snapshotNotWritten ∉ (Handler.commit tree layout settings now transition).journal)
    (hshown : shown' = true →
      .snapshotWritten ∈ (Handler.commit tree layout settings now transition).journal ∨
        shown = true ∧ payload.opens (StateFile.read tree layout.stateFile).1 = false) :
    IsConsistent layout (Handler.commit tree layout settings now transition).tree shown' := by
  have hsame (hnone : shown' = true → shown = true) : IsConsistent layout tree shown' :=
    ⟨h.kept, fun htrue => h.shows (hnone htrue)⟩
  cases hshape with
  | unchanged =>
    rw [Handler.commit_unchanged] at hshown ⊢
    refine hsame fun htrue => ?_
    rcases hshown htrue with hmem | ⟨hbefore, -⟩
    · exact absurd hmem List.not_mem_nil
    · exact hbefore
  | stored s hs =>
    have hread := Handler.read_commit_stored (hsession s rfl) hstored
    refine isConsistent_of_read_some hread (hsession s rfl) fun htrue => ?_
    rcases hshown htrue with hmem | ⟨hbefore, hopens⟩
    · exact absurd hmem (Handler.snapshotWritten_not_mem_commit_stored s)
    · rcases hs with hs | ⟨old, hold, pending, rfl⟩
      · rw [hs] at hopens
        cases hopens
      · -- a tool was announced: no part of a snapshot, nor of its path
        have hshows := (h.shows hbefore old hold).announced pending
        exact Handler.isShown_commit_stored hshows
  | shown s =>
    have hread := Handler.read_commit_shown (hsession s rfl) hstored
    refine isConsistent_of_read_some hread (hsession s rfl) fun _ => ?_
    exact Handler.isShown_commit_shown (hsession s rfl).times.start hwritten
  | ended source =>
    rcases hpresent : Handler.present? tree layout settings now
        ⟨(StateFile.read tree layout.stateFile).1, .reset, source⟩ with _ | ⟨presented, told⟩
    · -- the process is broken off: both files stay
      rw [Handler.commit_brokenOff hpresent] at hshown ⊢
      refine hsame fun htrue => ?_
      rcases hshown htrue with hmem | ⟨hbefore, -⟩
      · exact absurd hmem List.not_mem_nil
      · exact hbefore
    · exact isConsistent_of_read_none (Handler.read_commit_ended hpresent hcleared)

theorem IsConsistent.outcome {shown : Bool} (h : IsConsistent layout tree shown)
    (hfound : ∀ path, IsLogPath layout path → v.found.read? path = tree.read? path)
    (hstored : .stateNotStored ∉ (v.outcome layout).journal)
    (hcleared : .stateNotCleared ∉ (v.outcome layout).journal)
    (hwritten : .snapshotNotWritten ∉ (v.outcome layout).journal) :
    IsConsistent layout (v.outcome layout).tree
      (v.writes layout || shown && !v.opens layout) := by
  have hconsistent := h.congr hfound
  have hmakes := v.occurrence.makes (StateFile.read v.found layout.stateFile).1
  have hsession := hmakes.isKept hconsistent.kept v.now.leapEndsMinute
  have hannounced := snapshotWritten_not_mem_announced layout v
  rw [writes, opens]
  rw [outcome_eq rfl] at hstored hcleared hwritten ⊢
  simp only [List.mem_append, not_or] at hstored hcleared hwritten
  simp only
  apply hconsistent.commit hmakes.shape hsession hstored.2 hcleared.2 hwritten.2
  intro hshown
  simp only [Bool.or_eq_true, List.contains_iff_mem, List.mem_append, Bool.and_eq_true,
    Bool.not_eq_true'] at hshown
  rcases hshown with (hmem | hmem) | hbefore
  · exact absurd hmem hannounced
  · exact Or.inl hmem
  · exact Or.inr hbefore

/-- The induction is on the run: every visit keeps the files consistent, and the next one
    finds them as it left them. -/
theorem IsConsistent.filesAfter {shown : Bool} {run : List Visit}
    (h : IsConsistent layout tree shown) (hrun : Undisturbed layout (IsLogPath layout) tree run)
    (hwritten : ∀ v ∈ run, .stateNotStored ∉ (v.outcome layout).journal ∧
      .stateNotCleared ∉ (v.outcome layout).journal ∧
      .snapshotNotWritten ∉ (v.outcome layout).journal) :
    IsConsistent layout (filesAfter layout tree run) (hasShown layout shown run) := by
  induction run generalizing tree shown with
  | nil => exact h
  | cons v run ih =>
    obtain ⟨hfound, hrest⟩ := hrun
    have hv := hwritten v List.mem_cons_self
    have hnext := h.outcome hfound hv.1 hv.2.1 hv.2.2
    rw [filesAfter_cons, hasShown, List.foldl_cons]
    exact ih hnext hrest fun w hw => hwritten w (List.mem_cons_of_mem _ hw)

end Visit

/-- Where no session is kept at first, and in every visit of a run the state file and the
    snapshots are found as they were left and can be written, the session that is read
    from the state file after the run is the one that its snapshot shows, if a snapshot
    has been written since that session was opened. What is written in the settings, and
    what else happens to the files between visits, plays no part. -/
theorem snapshot_shows_session (layout : Layout) (tree : FileTree) (run : List Visit)
    (hnone : (StateFile.read tree layout.stateFile).1 = none)
    (hrun : Visit.Undisturbed layout (Visit.IsLogPath layout) tree run)
    (hwritten : ∀ v ∈ run, .stateNotStored ∉ (v.outcome layout).journal ∧
      .stateNotCleared ∉ (v.outcome layout).journal ∧
      .snapshotNotWritten ∉ (v.outcome layout).journal)
    (hshown : Visit.hasShown layout false run = true) :
    ∀ s ∈ (StateFile.read (Visit.filesAfter layout tree run) layout.stateFile).1,
      Snapshot.IsShown layout (Visit.filesAfter layout tree run) s := by
  have hempty : Visit.IsConsistent layout tree false := Visit.isConsistent_of_read_none hnone
  exact (hempty.filesAfter hrun hwritten).shows hshown

/-- A session is opened by a prompt where there are no files yet; then a tool is
    announced. -/
def promptAndTool : List Visit :=
  Visit.consecutive ⟨"/p"⟩ .bare
    [(.named "UserPromptSubmit", .default, .epoch),
      ({ Payload.named "PreToolUse" with toolName := some "Skill" }, .default, .epoch)]

theorem snapshot_shows_prompt :
    (StateFile.read (Visit.filesAfter ⟨"/p"⟩ .bare promptAndTool)
        (Layout.stateFile ⟨"/p"⟩)).1.isSome = true ∧
      ∀ s ∈ (StateFile.read (Visit.filesAfter ⟨"/p"⟩ .bare promptAndTool)
        (Layout.stateFile ⟨"/p"⟩)).1,
        Snapshot.IsShown ⟨"/p"⟩ (Visit.filesAfter ⟨"/p"⟩ .bare promptAndTool) s :=
  ⟨by decide +kernel, snapshot_shows_session ⟨"/p"⟩ .bare promptAndTool
    (by decide +kernel) (Visit.undisturbed_consecutive _ _ _ _) (by decide +kernel)
    (by decide +kernel)⟩

end SessionLog
