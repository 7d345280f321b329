/-
  SessionLog/Proofs/Idle.lean
  ===========================
  **Events that have nothing to do leave no trace.**

  An event that is not known, that finds no session to work on, or that the session has
  nothing to do with, keeps the session and writes nothing. No file is different after it, be
  the state file readable or not. So a run may be told without such events: it ends with the
  same session, and with the same files even if others have changed files in between.
-/
import SessionLog.Proofs.Visit

namespace SessionLog

/-! ### Steps that change nothing -/

section Steps

variable {σ α : Type} (step : σ → α → σ) (idle : σ → α → Bool)

/-- The steps of a run but for those that are idle in the state that they find. -/
def withoutIdle : σ → List α → List α
  | _, [] => []
  | state, a :: rest =>
    if idle state a then withoutIdle (step state a) rest
    else a :: withoutIdle (step state a) rest

theorem foldl_withoutIdle (h : ∀ state a, idle state a = true → step state a = state)
    (state : σ) (run : List α) :
    (withoutIdle step idle state run).foldl step state = run.foldl step state := by
  induction run generalizing state with
  | nil => rfl
  | cons a rest ih =>
    rw [withoutIdle, List.foldl_cons]
    split
    · rename_i hidle
      rw [h state a hidle]
      exact ih state
    · rw [List.foldl_cons]
      exact ih (step state a)

end Steps

/-! ### Transitions of idle events -/

namespace Occurrence

variable {prior : Option Session} {o : Occurrence}

/-- The cases are what an event can do: in all but the first the state file is written. -/
theorem Makes.idle_cases {made : Transition} (h : o.Makes prior made) :
    (o.isIdle prior = true ∧ made = .unchanged prior) ∨
      (o.isIdle prior = false ∧ made.stateWrite ≠ .keep) := by
  have hstore : StateWrite.store ≠ .keep := by decide
  have hreset : StateWrite.reset ≠ .keep := by decide
  cases h with
  | nothing hidle => exact Or.inl ⟨hidle, rfl⟩
  | start trigger hevent | prompt text hevent =>
    right
    refine ⟨?_, hstore⟩
    rw [isIdle.eq_def, hevent]
  | finale source hevent =>
    right
    refine ⟨?_, hreset⟩
    rw [isIdle.eq_def, hevent]
  | announce s tool input hs hevent hrecords =>
    right
    refine ⟨?_, hstore⟩
    simp [hs, isIdle, hevent, hrecords]
  | useTool s tool input response hs hevent hrecords =>
    right
    refine ⟨?_, hstore⟩
    simp [hs, isIdle, hevent, hrecords]
  | finish s pending hs hevent hpending =>
    right
    refine ⟨?_, hstore⟩
    simp [hs, isIdle, hevent, hpending]
  | request s tool input hs hevent =>
    right
    refine ⟨?_, hstore⟩
    simp only [hs, isIdle, hevent]
  | answer s hs hevent =>
    right
    refine ⟨?_, hstore⟩
    simp only [hs, isIdle, hevent]

theorem stateWrite_eq_keep_iff (prior : Option Session) (o : Occurrence) :
    (o.transition prior).stateWrite = .keep ↔ o.isIdle prior = true := by
  rcases (o.makes prior).idle_cases with ⟨hidle, hmade⟩ | ⟨hidle, hwrite⟩
  · rw [hmade, hidle]
    exact iff_of_true rfl rfl
  · rw [hidle]
    exact iff_of_false hwrite Bool.false_ne_true

theorem transition_of_isIdle (h : o.isIdle prior = true) :
    o.transition prior = .unchanged prior := by
  rcases (o.makes prior).idle_cases with ⟨-, hmade⟩ | ⟨hidle, -⟩
  · exact hmade
  · rw [hidle] at h
    cases h

end Occurrence

theorem Session.next_of_isIdle {prior : Option Session} {o : Occurrence}
    (h : o.isIdle prior = true) : next prior o = prior := by
  rw [next, Occurrence.transition_of_isIdle h]
  rfl

/-! ### Files -/

/-- What happens to the files of a project: an event is handled, or somebody else changes
    them. -/
inductive Happening where
  | event (payload : Payload) (settings : Settings) (now : Moment)
  | change (edit : FileTree → FileTree)

namespace Happening

def leaves (layout : Layout) (tree : FileTree) : Happening → FileTree
  | .event payload settings now => (Visit.outcome layout ⟨payload, settings, now, tree⟩).tree
  | .change edit => edit tree

/-- An event that has nothing to do with the session in the state file. -/
def isIdle (layout : Layout) (tree : FileTree) : Happening → Bool
  | .event payload settings now =>
    (Occurrence.mk payload settings now tree.read?).isIdle
      (StateFile.read tree layout.stateFile).1
  | .change _ => false

theorem leaves_of_isIdle {layout : Layout} {tree : FileTree} {happening : Happening}
    (h : happening.isIdle layout tree = true) : happening.leaves layout tree = tree := by
  cases happening with
  | event payload settings now =>
    have hunchanged := Occurrence.transition_of_isIdle h
    have hcommitted : Visit.committed layout ⟨payload, settings, now, tree⟩
        (StateFile.read tree layout.stateFile).1 =
          ⟨.unchanged (StateFile.read tree layout.stateFile).1, tree, [], true⟩ := by
      rw [Visit.committed, Visit.occurrence, hunchanged, Handler.commit_unchanged]
    rw [leaves, Visit.outcome_eq rfl, hcommitted]
  | change edit => cases h

end Happening

/-- An event keeps what is in the state file exactly if it is idle: it is none that is known,
    or it finds no session to work on, or a tool that is not recorded, or no subagent that is
    out. Then the session is the one before, no snapshot is due, and all files stay as they
    are. So the idle events of a run can be left out: the run ends with the same session, and
    where files are changed by others as well it ends with the same files. -/
theorem idle_events_leave_no_trace (layout : Layout) :
    (∀ (prior : Option Session) (o : Occurrence),
      ((o.transition prior).stateWrite = .keep ↔ o.isIdle prior = true) ∧
      (o.isIdle prior = true → o.transition prior = ⟨prior, .keep, none⟩)) ∧
    (∀ (tree : FileTree) (happening : Happening), happening.isIdle layout tree = true →
      happening.leaves layout tree = tree) ∧
    (∀ (prior : Option Session) (run : List Occurrence),
      Session.after prior (withoutIdle Session.next (fun prior o => o.isIdle prior) prior run) =
        Session.after prior run) ∧
    (∀ (tree : FileTree) (run : List Happening),
      (withoutIdle (Happening.leaves layout) (Happening.isIdle layout) tree run).foldl
        (Happening.leaves layout) tree = run.foldl (Happening.leaves layout) tree) := by
  refine ⟨fun prior o => ⟨?_, ?_⟩, ?_, ?_, ?_⟩
  · exact Occurrence.stateWrite_eq_keep_iff prior o
  · exact Occurrence.transition_of_isIdle
  · exact fun tree happening => Happening.leaves_of_isIdle
  · exact foldl_withoutIdle _ _ fun prior o => Session.next_of_isIdle
  · exact foldl_withoutIdle _ _ fun tree happening => Happening.leaves_of_isIdle

/-- A session is started, and somebody else spoils its state file. -/
def spoiledProject : List Happening :=
  [.event (.named "SessionStart") .default .epoch,
    .change fun tree =>
      (tree.write (Layout.stateFile ⟨"/p"⟩) (Utf8.encode "\x7b no record".toList)).1]

/-- A recorded tool is used. -/
def useAfterSpoiling : Happening :=
  .event { Payload.named "PostToolUse" with toolName := some "Edit" } .default .epoch

theorem spoiled_file_stays :
    let tree := spoiledProject.foldl (Happening.leaves ⟨"/p"⟩) .bare
    tree.read? (Layout.stateFile ⟨"/p"⟩) = some (Utf8.encode "\x7b no record".toList) ∧
      useAfterSpoiling.leaves ⟨"/p"⟩ tree = tree := by
  intro tree
  obtain ⟨-, hleaves, -, -⟩ := idle_events_leave_no_trace ⟨"/p"⟩
  exact ⟨by decide +kernel, hleaves tree useAfterSpoiling (by decide +kernel)⟩

end SessionLog
