/-
  SessionLog/Proofs/Visit.lean
  ============================
  **Processes that come one after another, with a tree of files between them.**

  A visit is one process: it finds files, handles a payload and leaves files behind. What
  lies between two visits may change in any way but for the files of the log. A visit
  whose writes succeed does to the state file what its transition says.
-/
import SessionLog.Handler
import SessionLog.Proofs.Session.Invariant
import SessionLog.Proofs.Snapshot.File

namespace SessionLog

/-! ### Visits -/

/-- The handling of one payload by a process of its own. -/
structure Visit where
  payload : Payload
  settings : Settings
  now : Moment
  found : FileTree

namespace Visit

def outcome (layout : Layout) (v : Visit) : Outcome :=
  Handler.handle v.found layout v.settings v.now v.payload

def occurrence (v : Visit) : Occurrence := ⟨v.payload, v.settings, v.now, v.found.read?⟩

def filesAfter (layout : Layout) (tree : FileTree) (run : List Visit) : FileTree :=
  run.foldl (fun _ v => (v.outcome layout).tree) tree

@[simp] theorem filesAfter_cons (layout : Layout) (tree : FileTree) (v : Visit) (run : List Visit) :
    filesAfter layout tree (v :: run) = filesAfter layout (v.outcome layout).tree run := by
  rw [filesAfter, filesAfter, List.foldl_cons]

/-- Every visit of a run finds some files as the one before has left them. -/
def Undisturbed (layout : Layout) (paths : String → Prop) : FileTree → List Visit → Prop
  | _, [] => True
  | tree, v :: rest =>
    (∀ path, paths path → v.found.read? path = tree.read? path) ∧
      Undisturbed layout paths (v.outcome layout).tree rest

/-- Visits one after another, each of which finds what the one before has left. -/
def consecutive (layout : Layout) : FileTree → List (Payload × Settings × Moment) → List Visit
  | _, [] => []
  | tree, (payload, settings, now) :: rest =>
    ⟨payload, settings, now, tree⟩ ::
      consecutive layout (outcome layout ⟨payload, settings, now, tree⟩).tree rest

theorem undisturbed_consecutive (layout : Layout) (paths : String → Prop) (tree : FileTree)
    (events : List (Payload × Settings × Moment)) :
    Undisturbed layout paths tree (consecutive layout tree events) := by
  induction events generalizing tree with
  | nil => exact trivial
  | cons event events ih => exact ⟨fun _ _ => rfl, ih _⟩

end Visit

/-- The session whose snapshot is due. -/
def Transition.due? (transition : Transition) : Option Session :=
  transition.snapshot.bind fun _ => transition.session

theorem Transition.session_of_due? {transition : Transition} {s : Session}
    (h : s ∈ transition.due?) : s ∈ transition.session := by
  obtain ⟨source, -, hsession⟩ := Option.bind_eq_some_iff.1 h
  exact hsession

namespace Handler

variable {tree : FileTree} {layout : Layout} {settings : Settings} {now : Moment}

/-! ### Writes that succeed -/

theorem ok_of_not_mem_failure {ε : Type} {notice : Notice} {result : Except ε Unit}
    (h : notice ∉ failure notice result) : result = .ok () := by
  cases result with
  | error error => exact absurd List.mem_cons_self h
  | ok done => rfl

theorem store_of_not_mem {s : Session} (h : .stateNotStored ∉ (storeSession tree layout s).2) :
    (StateFile.store tree layout.stateFile s).2 = .ok () := by
  rw [storeSession.eq_def] at h
  generalize StateFile.store tree layout.stateFile s = attempt at h ⊢
  exact ok_of_not_mem_failure h

theorem clear_of_not_mem (h : .stateNotCleared ∉ (clearSession tree layout).2) :
    (StateFile.clear tree layout.stateFile).2 = .ok () := by
  rw [clearSession.eq_def] at h
  generalize StateFile.clear tree layout.stateFile = attempt at h ⊢
  exact ok_of_not_mem_failure h

@[simp] theorem storeSession_fst (tree : FileTree) (layout : Layout) (s : Session) :
    (storeSession tree layout s).1 = (StateFile.replace tree layout.stateFile s.text).1 := by
  rw [storeSession.eq_def, StateFile.store]

@[simp] theorem clearSession_fst (tree : FileTree) (layout : Layout) :
    (clearSession tree layout).1 =
      (StateFile.replace tree layout.stateFile StateFile.closedText).1 := by
  rw [clearSession.eq_def, StateFile.clear]

@[simp] theorem writeSnapshot_fst (tree : FileTree) (layout : Layout) (settings : Settings)
    (s : Session) (now : DateTime) :
    (writeSnapshot tree layout settings s now).1 =
      (Snapshot.write tree layout settings s now).1 := by
  rw [writeSnapshot.eq_def]

/-! ### What a transition writes -/

/-- A snapshot is written as a document at the path of the session that it is due for. -/
theorem presented_cases {transition : Transition} {presented : FileTree × Journal}
    (h : present? tree layout settings now transition = some presented) :
    presented.1 = tree ∨ ∃ s ∈ transition.due?, ∃ text,
      presented.1 =
        (Snapshot.writeDocument tree layout (Snapshot.path layout s) text).1 := by
  rw [present?.eq_def] at h
  split at h
  · rename_i source s hsource hsession
    obtain ⟨shown, hshown, rfl⟩ := Option.map_eq_some_iff.1 h
    have hdue : s ∈ transition.due? := by
      rw [Transition.due?, hsource]
      exact hsession
    have hwrite := congrArg Prod.fst
      (Snapshot.write_eq_writeDocument tree layout settings shown now.localTime)
    rw [Session.path_counts? hshown layout] at hwrite
    exact Or.inr ⟨s, hdue, _,
      (writeSnapshot_fst tree layout settings shown now.localTime).trans hwrite⟩
  · cases h
    exact Or.inl rfl

/-- A relation that goes over the replacement of the state file and over the writing of a
    snapshot that is due goes over all the writes of a transition. -/
theorem commit_induction {transition : Transition} {r : FileTree → FileTree → Prop}
    (hrefl : ∀ tree, r tree tree)
    (htrans : ∀ tree middle left, r tree middle → r middle left → r tree left)
    (hstate : ∀ tree text, r tree (StateFile.replace tree layout.stateFile text).1)
    (hsnapshot : ∀ s ∈ transition.due?, ∀ tree text,
      r tree (Snapshot.writeDocument tree layout (Snapshot.path layout s) text).1) :
    r tree (commit tree layout settings now transition).tree := by
  have hkeep : r tree (keep tree layout transition).1 := by
    rw [keep.eq_def]
    split
    · rw [storeSession_fst]
      exact hstate tree _
    · exact hrefl tree
  have hclose (left : FileTree) : r left (close left layout transition).1 := by
    rw [close.eq_def]
    split
    · rw [clearSession_fst]
      exact hstate left _
    · exact hrefl left
  rw [commit.eq_def]
  generalize keep tree layout transition = kept at hkeep ⊢
  rcases hpresent : present? kept.1 layout settings now transition with _ | presented
  · simp only [hpresent]
    exact hkeep
  · have hpresented : r kept.1 presented.1 := by
      rcases presented_cases hpresent with hsame | ⟨s, hs, text, hwritten⟩
      · rw [hsame]
        exact hrefl kept.1
      · rw [hwritten]
        exact hsnapshot s hs kept.1 text
    simp only [hpresent]
    exact htrans _ _ _ hkeep (htrans _ _ _ hpresented (hclose presented.1))

/-! ### What a transition writes, by its shape -/

@[simp] theorem commit_unchanged (tree : FileTree) (layout : Layout) (settings : Settings)
    (now : Moment) (prior : Option Session) :
    commit tree layout settings now (.unchanged prior) = ⟨.unchanged prior, tree, [], true⟩ :=
  rfl

@[simp] theorem commit_stored (tree : FileTree) (layout : Layout) (settings : Settings)
    (now : Moment) (s : Session) :
    commit tree layout settings now (.stored s) =
      ⟨.stored s, (storeSession tree layout s).1, (storeSession tree layout s).2 ++ [] ++ [],
        true⟩ := by
  have hkeep : keep tree layout (.stored s) = storeSession tree layout s := rfl
  have hpresent (kept : FileTree) :
      present? kept layout settings now (.stored s) = some (kept, []) := rfl
  have hclose (left : FileTree) : close left layout (.stored s) = (left, []) := rfl
  rw [commit.eq_def, hkeep]
  rcases storeSession tree layout s with ⟨kept, said⟩
  simp only [hpresent, hclose]

@[simp] theorem commit_shown (tree : FileTree) (layout : Layout) (settings : Settings)
    (now : Moment) (s : Session) :
    commit tree layout settings now (.shown s) =
      ⟨.shown s,
        (writeSnapshot (storeSession tree layout s).1 layout settings s now.localTime).1,
        (storeSession tree layout s).2 ++
          (writeSnapshot (storeSession tree layout s).1 layout settings s now.localTime).2 ++ [],
        true⟩ := by
  have hkeep : keep tree layout (.shown s) = storeSession tree layout s := rfl
  have hpresent (kept : FileTree) : present? kept layout settings now (.shown s) =
      some (writeSnapshot kept layout settings s now.localTime) := rfl
  have hclose (left : FileTree) : close left layout (.shown s) = (left, []) := rfl
  rw [commit.eq_def, hkeep]
  rcases storeSession tree layout s with ⟨kept, said⟩
  simp only [hpresent, hclose]

theorem commit_ended {prior : Option Session} {source : Option TokenSource}
    {presented : FileTree} {told : Journal}
    (h : present? tree layout settings now ⟨prior, .reset, source⟩ = some (presented, told)) :
    commit tree layout settings now ⟨prior, .reset, source⟩ =
      ⟨⟨prior, .reset, source⟩, (clearSession presented layout).1,
        [] ++ told ++ (clearSession presented layout).2, true⟩ := by
  have hkeep : keep tree layout ⟨prior, .reset, source⟩ = (tree, []) := rfl
  have hclose : close presented layout ⟨prior, .reset, source⟩ = clearSession presented layout :=
    rfl
  rw [commit.eq_def, hkeep]
  simp only [h, hclose]

/-- Where the counts of the last snapshot cannot be had, nothing is written. -/
theorem commit_brokenOff {prior : Option Session} {source : Option TokenSource}
    (h : present? tree layout settings now ⟨prior, .reset, source⟩ = none) :
    commit tree layout settings now ⟨prior, .reset, source⟩ =
      ⟨⟨prior, .reset, source⟩, tree, [], false⟩ := by
  have hkeep : keep tree layout ⟨prior, .reset, source⟩ = (tree, []) := rfl
  rw [commit.eq_def, hkeep]
  simp only [h]

/-! ### What is in the state file after that -/

theorem read?_commit_stored {s : Session}
    (h : (StateFile.store tree layout.stateFile s).2 = .ok ()) :
    (commit tree layout settings now (.stored s)).tree.read? layout.stateFile =
      some (Utf8.encode s.text) := by
  rw [commit_stored]
  simp only [storeSession_fst]
  exact StateFile.read?_store h

/-- The snapshot is written later, and leaves the state file. -/
theorem read?_commit_shown {s : Session}
    (h : (StateFile.store tree layout.stateFile s).2 = .ok ()) :
    (commit tree layout settings now (.shown s)).tree.read? layout.stateFile =
      some (Utf8.encode s.text) := by
  rw [commit_shown]
  simp only [writeSnapshot_fst, storeSession_fst]
  exact Snapshot.read?_stateFile_write settings s now.localTime (StateFile.read?_store h)

theorem read?_commit_ended {prior : Option Session} {source : Option TokenSource}
    {presented : FileTree} {told : Journal}
    (hpresent : present? tree layout settings now ⟨prior, .reset, source⟩ =
      some (presented, told))
    (h : (StateFile.clear presented layout.stateFile).2 = .ok ()) :
    (commit tree layout settings now ⟨prior, .reset, source⟩).tree.read? layout.stateFile =
      some (Utf8.encode StateFile.closedText) := by
  rw [commit_ended hpresent]
  simp only [clearSession_fst]
  exact StateFile.read?_clear h

theorem read_commit_stored {s : Session} (hs : s.IsKept fun t => t.time.LeapEndsMinute)
    (h : .stateNotStored ∉ (commit tree layout settings now (.stored s)).journal) :
    (StateFile.read (commit tree layout settings now (.stored s)).tree layout.stateFile).1 =
      some s := by
  rw [commit_stored] at h
  simp only [List.append_nil] at h
  have hstored := store_of_not_mem h
  rw [StateFile.read_eq_ofText (read?_commit_stored hstored), StateFile.ofText_text hs]

theorem read_commit_shown {s : Session} (hs : s.IsKept fun t => t.time.LeapEndsMinute)
    (h : .stateNotStored ∉ (commit tree layout settings now (.shown s)).journal) :
    (StateFile.read (commit tree layout settings now (.shown s)).tree layout.stateFile).1 =
      some s := by
  rw [commit_shown] at h
  simp only [List.append_nil, List.mem_append, not_or] at h
  have hstored := store_of_not_mem h.1
  rw [StateFile.read_eq_ofText (read?_commit_shown hstored), StateFile.ofText_text hs]

theorem read_commit_ended {prior : Option Session} {source : Option TokenSource}
    {presented : FileTree} {told : Journal}
    (hpresent : present? tree layout settings now ⟨prior, .reset, source⟩ =
      some (presented, told))
    (h : .stateNotCleared ∉ (commit tree layout settings now ⟨prior, .reset, source⟩).journal) :
    (StateFile.read (commit tree layout settings now ⟨prior, .reset, source⟩).tree
      layout.stateFile).1 = none := by
  rw [commit_ended hpresent] at h
  simp only [List.nil_append, List.mem_append, not_or] at h
  have hcleared := clear_of_not_mem h.2
  rw [StateFile.read_eq_ofText (read?_commit_ended hpresent hcleared),
    StateFile.ofText_closedText]

end Handler

namespace Visit

/-! ### One visit -/

variable {layout : Layout} {v : Visit} {prior : Option Session}

def announced (layout : Layout) (v : Visit) : Journal :=
  (StateFile.read v.found layout.stateFile).2 ++ Handler.announcement v.payload

def committed (layout : Layout) (v : Visit) (prior : Option Session) : Outcome :=
  Handler.commit v.found layout v.settings v.now (v.occurrence.transition prior)

theorem outcome_eq (hprior : (StateFile.read v.found layout.stateFile).1 = prior) :
    v.outcome layout = { v.committed layout prior with
      journal := v.announced layout ++ (v.committed layout prior).journal } := by
  rw [outcome, announced, committed, Handler.handle.eq_def]
  rcases hread : StateFile.read v.found layout.stateFile with ⟨found, said⟩
  rw [hread] at hprior
  obtain rfl : found = prior := hprior
  rfl

/-- A visit that comes to its end, and whose replacements of the state file succeed, leaves
    the next session in the file. The cases are the shapes of transitions. -/
theorem read_outcome {p : DateTime → Prop} (hp : ∀ t, p t → t.time.LeapEndsMinute)
    (hprior : (StateFile.read v.found layout.stateFile).1 = prior)
    (hkept : ∀ s ∈ prior, s.IsKept p) (hnow : p v.now.localTime)
    (hfinished : (v.outcome layout).finished = true)
    (hstored : .stateNotStored ∉ (v.outcome layout).journal)
    (hcleared : .stateNotCleared ∉ (v.outcome layout).journal) :
    (StateFile.read (v.outcome layout).tree layout.stateFile).1 =
      Session.next prior v.occurrence := by
  have hmakes := v.occurrence.makes prior
  have hshape := hmakes.shape
  have hsession := hmakes.isKept hkept hnow
  rw [outcome_eq hprior] at hfinished hstored hcleared ⊢
  simp only [List.mem_append, not_or] at hfinished hstored hcleared ⊢
  obtain ⟨-, hstored⟩ := hstored
  obtain ⟨-, hcleared⟩ := hcleared
  rw [committed] at hfinished hstored hcleared ⊢
  rw [Session.next]
  generalize v.occurrence.transition prior = transition
    at hshape hsession hfinished hstored hcleared ⊢
  cases hshape with
  | unchanged =>
    rw [Handler.commit_unchanged]
    exact hprior
  | stored s =>
    have hread := Handler.read_commit_stored ((hsession s rfl).mono hp) hstored
    exact hread
  | shown s =>
    have hread := Handler.read_commit_shown ((hsession s rfl).mono hp) hstored
    exact hread
  | ended source =>
    rcases hpresent : Handler.present? v.found layout v.settings v.now
        ⟨prior, .reset, source⟩ with _ | ⟨presented, told⟩
    · rw [Handler.commit_brokenOff hpresent] at hfinished
      cases hfinished
    · have hread := Handler.read_commit_ended hpresent hcleared
      exact hread

end Visit

end SessionLog
