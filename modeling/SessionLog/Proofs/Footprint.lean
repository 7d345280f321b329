/-
  SessionLog/Proofs/Footprint.lean
  ================================
  **An event touches its own files and no other.**

  The handling of an event writes the state file, and the schema and a snapshot if one is
  due. Each writer makes directories and writes the file at its own path, and does no more
  than that if it fails on the way. So the paths of its writers say what an event can have
  changed, and the names in these paths tell their files from all others.

  Files are told by the places where they lie. Paths would not do, for one with dots in it
  may lead to another file once directories have been made.
-/
import SessionLog.Proofs.Visit

namespace SessionLog

open FileTree

/-! ### Schemas -/

/-- A schema that is there stays as it is, and one that is new holds what it may. -/
structure KeepsSchemas (may : Location → List UInt8 → Prop) (tree left : FileTree) : Prop where
  stays : ∀ place octets, place.IsNamed "_schema.json" →
    tree.node? place = some (.file octets) → left.node? place = some (.file octets)
  appears : ∀ place octets, place.IsNamed "_schema.json" →
    left.node? place = some (.file octets) → tree.node? place = some (.file octets) ∨
      (∀ before, tree.node? place ≠ some (.file before)) ∧ may place octets

namespace KeepsSchemas

variable {may : Location → List UInt8 → Prop} {tree middle left : FileTree}
  {paths : List String}

theorem refl (may : Location → List UInt8 → Prop) (tree : FileTree) :
    KeepsSchemas may tree tree where
  stays _ _ _ hfile := hfile
  appears _ _ _ hfile := Or.inl hfile

theorem trans (h : KeepsSchemas may tree middle) (h' : KeepsSchemas may middle left) :
    KeepsSchemas may tree left where
  stays place octets hname hfile := h'.stays place octets hname (h.stays place octets hname hfile)
  appears place octets hname hfile := by
    rcases h'.appears place octets hname hfile with hmiddle | ⟨hnone, hmay⟩
    · exact h.appears place octets hname hmiddle
    · right
      refine ⟨?_, hmay⟩
      intro before hbefore
      exact hnone before (h.stays place before hname hbefore)

theorem mono {may' : Location → List UInt8 → Prop} (h : KeepsSchemas may tree left)
    (himp : ∀ place octets, may place octets → may' place octets) :
    KeepsSchemas may' tree left where
  stays := h.stays
  appears place octets hname hfile :=
    (h.appears place octets hname hfile).imp_right (And.imp_right (himp place octets))

/-- No schema is touched if none of the paths leads to one. -/
theorem of_touches (h : Touches paths tree left)
    (hpaths : ∀ path ∈ paths, ∀ place, left.locate path = .ok place →
      ¬place.IsNamed "_schema.json") : KeepsSchemas may tree left := by
  have hsame : ∀ place, place.IsNamed "_schema.json" → SameFileAt place tree left := by
    intro place hname
    apply h.sameFileAt
    intro path hpath hlocate
    exact hpaths path hpath place hlocate hname
  constructor
  · intro place octets hname hfile
    exact (hsame place hname octets).2 hfile
  · intro place octets hname hfile
    exact Or.inl ((hsame place hname octets).1 hfile)

end KeepsSchemas

/-- As much of the text of the schema as a disk with some faults takes. -/
def IsSchemaTaken (faults : List (Location × Fault)) (place : Location) (octets : List UInt8) :
    Prop :=
  octets = Fault.taken (faults.lookup place) (Utf8.encode Schema.text)

theorem StateFile.keepsSchemas_replace (may : Location → List UInt8 → Prop) (tree : FileTree)
    (layout : Layout) (text : List Char) :
    KeepsSchemas may tree (replace tree layout.stateFile text).1 := by
  apply KeepsSchemas.of_touches (touches_replace tree layout.stateFile text)
  intro path hpath place hlocate hname
  obtain rfl := List.mem_singleton.1 hpath
  exact absurd (hname.unique (Layout.isNamed_stateFile hlocate)) (by decide)

namespace Snapshot

theorem keepsSchemas_ensureSchema (tree : FileTree) (layout : Layout) :
    KeepsSchemas (IsSchemaTaken tree.faults) tree (ensureSchema tree layout).1 := by
  rcases ensureSchema_cases tree layout with hsame | ⟨place, -, hnone, hput⟩
  · rw [hsame]
    exact .refl _ tree
  · have hnode := node?_put tree (ne_root_of_node?_eq_none hnone)
      (.file (tree.taken place (Utf8.encode Schema.text)))
    rw [hput]
    constructor
    · intro other octets _ hfile
      rw [hnode, if_neg]
      · exact hfile
      · rintro rfl
        rw [hnone] at hfile
        cases hfile
    · intro other octets _ hfile
      rw [hnode] at hfile
      split at hfile
      · rename_i hother
        cases hfile
        right
        rw [hother, hnone]
        refine ⟨?_, rfl⟩
        intro before hbefore
        cases hbefore
      · exact Or.inl hfile

theorem keepsSchemas_writeDocument (tree : FileTree) (layout : Layout) (s : Session)
    (text : List Char) :
    KeepsSchemas (IsSchemaTaken tree.faults) tree
      (writeDocument tree layout (path layout s) text).1 := by
  obtain ⟨described, hdescribe, hwritten⟩ := writeDocument_steps tree layout (path layout s) text
  have hmade := changes_makeDirectories tree layout.logDirectory
  generalize (tree.makeDirectories layout.logDirectory).1 = made at hdescribe hmade
  have hdirectories : KeepsSchemas (IsSchemaTaken tree.faults) tree made := by
    have htouches : Touches [] tree made := .of_changes hmade
    apply KeepsSchemas.of_touches htouches
    intro own hown
    cases hown
  have hdescribed : KeepsSchemas (IsSchemaTaken tree.faults) made described := by
    rcases hdescribe with rfl | rfl
    · exact .refl _ described
    · rw [← hmade.faults]
      exact keepsSchemas_ensureSchema made layout
  have hdocument : KeepsSchemas (IsSchemaTaken tree.faults) described
      (writeDocument tree layout (path layout s) text).1 := by
    apply KeepsSchemas.of_touches hwritten.touches
    intro own hown place hlocate hname
    obtain rfl := List.mem_singleton.1 hown
    exact name_ne (by decide) s ((isNamed_path hlocate).unique hname)
  exact (hdirectories.trans hdescribed).trans hdocument

end Snapshot

/-! ### The files of an event -/

namespace Handler

variable {tree : FileTree} {layout : Layout} {settings : Settings} {now : Moment}
  {payload : Payload} {transition : Transition}

/-- The paths that a transition may write: that of the state file, and those of the schema
    and of the snapshot if one is due. -/
def ownPaths (layout : Layout) (transition : Transition) : List String :=
  layout.stateFile ::
    match transition.due? with
    | none => []
    | some s => [layout.schemaFile, Snapshot.path layout s]

theorem mem_ownPaths {path : String} : path ∈ ownPaths layout transition ↔
    path = layout.stateFile ∨
      ∃ s ∈ transition.due?, path = layout.schemaFile ∨ path = Snapshot.path layout s := by
  rw [ownPaths, List.mem_cons]
  cases transition.due? with
  | none => simp
  | some s => simp

theorem touches_commit (tree : FileTree) (layout : Layout) (settings : Settings) (now : Moment)
    (transition : Transition) :
    Touches (ownPaths layout transition) tree
      (commit tree layout settings now transition).tree := by
  apply commit_induction
  · exact .refl _ _
  · exact fun tree middle left => .trans
  · intro tree text
    apply (StateFile.touches_replace tree layout.stateFile text).mono
    intro path hpath
    exact mem_ownPaths.2 (Or.inl (List.mem_singleton.1 hpath))
  · intro s hs tree text
    apply (Snapshot.touches_writeDocument tree layout _ text).mono
    intro path hpath
    simp only [List.mem_cons, List.not_mem_nil, or_false] at hpath
    exact mem_ownPaths.2 (Or.inr ⟨s, hs, hpath⟩)

/-- What is wrong with the disk stays as it is from one write to the next, so each of them
    finds what the event has found. -/
theorem keepsSchemas_commit (tree : FileTree) (layout : Layout) (settings : Settings)
    (now : Moment) (transition : Transition) :
    KeepsSchemas (IsSchemaTaken tree.faults) tree
      (commit tree layout settings now transition).tree := by
  let r (before after : FileTree) : Prop := before.faults = tree.faults →
    after.faults = tree.faults ∧ KeepsSchemas (IsSchemaTaken tree.faults) before after
  have hcommit : r tree (commit tree layout settings now transition).tree := by
    apply commit_induction
    · exact fun before hfaults => ⟨hfaults, .refl _ before⟩
    · intro before middle after h h' hfaults
      obtain ⟨hmiddle, hkeeps⟩ := h hfaults
      obtain ⟨hafter, hkeeps'⟩ := h' hmiddle
      exact ⟨hafter, hkeeps.trans hkeeps'⟩
    · intro before text hfaults
      have hsame := (StateFile.touches_replace before layout.stateFile text).faults
      exact ⟨hsame.trans hfaults, StateFile.keepsSchemas_replace _ before layout text⟩
    · intro s _ before text hfaults
      have hsame := (Snapshot.touches_writeDocument before layout (Snapshot.path layout s)
        text).faults
      have hkeeps := Snapshot.keepsSchemas_writeDocument before layout s text
      rw [hfaults] at hkeeps
      exact ⟨hsame.trans hfaults, hkeeps⟩
  exact (hcommit rfl).2

@[simp] theorem transition_commit (tree : FileTree) (layout : Layout) (settings : Settings)
    (now : Moment) (transition : Transition) :
    (commit tree layout settings now transition).transition = transition := by
  rw [commit.eq_def]
  generalize keep tree layout transition = kept
  cases hpresent : present? kept.1 layout settings now transition with
  | none => simp only [hpresent]
  | some presented => simp only [hpresent]

/-! ### One event -/

/-- The files after an event. It is not handled where the settings turn recording off. -/
def leaves (tree : FileTree) (layout : Layout) (now : Moment) (payload : Payload) : FileTree :=
  ((run? tree layout now payload).map Outcome.tree).getD tree

/-- The paths that an event may write. -/
def written (tree : FileTree) (layout : Layout) (now : Moment) (payload : Payload) :
    List String :=
  ((run? tree layout now payload).map fun outcome => ownPaths layout outcome.transition).getD []

theorem run?_of_disabled (h : (Handler.settings tree layout).enabled = false) :
    run? tree layout now payload = none := by
  rw [run?.eq_def]
  exact if_neg (by rw [h]; decide)

theorem run?_of_enabled (h : (Handler.settings tree layout).enabled = true) :
    run? tree layout now payload =
      some (handle tree layout (Handler.settings tree layout) now payload) := by
  rw [run?.eq_def]
  exact if_pos h

theorem leaves_of_disabled (h : (Handler.settings tree layout).enabled = false) :
    leaves tree layout now payload = tree := by
  rw [leaves, run?_of_disabled h]
  rfl

/-- An event that is handled commits a transition. -/
theorem exists_commit (tree : FileTree) (layout : Layout) (settings : Settings) (now : Moment)
    (payload : Payload) :
    ∃ transition, (handle tree layout settings now payload).transition = transition ∧
      (handle tree layout settings now payload).tree =
        (commit tree layout settings now transition).tree := by
  rw [handle.eq_def]
  rcases StateFile.read tree layout.stateFile with ⟨prior, said⟩
  exact ⟨_, transition_commit tree layout settings now _, rfl⟩

theorem leaves_cases (tree : FileTree) (layout : Layout) (now : Moment) (payload : Payload) :
    (written tree layout now payload = [] ∧ leaves tree layout now payload = tree) ∨
      ∃ settings transition, written tree layout now payload = ownPaths layout transition ∧
        leaves tree layout now payload = (commit tree layout settings now transition).tree := by
  cases henabled : (Handler.settings tree layout).enabled with
  | false =>
    have hrun := @run?_of_disabled tree layout now payload henabled
    rw [written, leaves, hrun]
    exact Or.inl ⟨rfl, rfl⟩
  | true =>
    have hrun := @run?_of_enabled tree layout now payload henabled
    obtain ⟨transition, htransition, htree⟩ :=
      exists_commit tree layout (Handler.settings tree layout) now payload
    rw [written, leaves, hrun]
    exact Or.inr ⟨Handler.settings tree layout, transition,
      congrArg (ownPaths layout) htransition, htree⟩

theorem touches_leaves (tree : FileTree) (layout : Layout) (now : Moment) (payload : Payload) :
    Touches (written tree layout now payload) tree (leaves tree layout now payload) := by
  rcases leaves_cases tree layout now payload with ⟨-, hsame⟩ | ⟨settings, transition, hown, hleft⟩
  · rw [hsame]
    exact .refl _ _ tree
  · rw [hown, hleft]
    exact touches_commit tree layout settings now transition

theorem keepsSchemas_leaves (tree : FileTree) (layout : Layout) (now : Moment)
    (payload : Payload) :
    KeepsSchemas (IsSchemaTaken tree.faults) tree (leaves tree layout now payload) := by
  rcases leaves_cases tree layout now payload with ⟨-, hsame⟩ | ⟨settings, transition, -, hleft⟩
  · rw [hsame]
    exact .refl _ tree
  · rw [hleft]
    exact keepsSchemas_commit tree layout settings now transition

/-- A place where an event may write has the name of the state file, of the schema or of a
    snapshot. -/
theorem isNamed_of_written {left : FileTree} {path : String} {place : Location}
    (hpath : path ∈ written tree layout now payload) (h : left.locate path = .ok place) :
    place.IsNamed ".state.json" ∨ place.IsNamed "_schema.json" ∨
      ∃ s, path = Snapshot.path layout s ∧ place.IsNamed (Snapshot.name s) := by
  rcases leaves_cases tree layout now payload with ⟨hnone, -⟩ | ⟨settings, transition, hown, -⟩
  · rw [hnone] at hpath
    cases hpath
  · rw [hown] at hpath
    rcases mem_ownPaths.1 hpath with rfl | ⟨s, -, rfl | rfl⟩
    · exact Or.inl (Layout.isNamed_stateFile h)
    · exact Or.inr (Or.inl (Layout.isNamed_schemaFile h))
    · exact Or.inr (Or.inr ⟨s, rfl, Snapshot.isNamed_path h⟩)

/-- Files under a name that is none of those are not touched. -/
theorem sameFileAt_of_isNamed {name : String} {place : Location} (hname : place.IsNamed name)
    (hstate : name ≠ ".state.json") (hschema : name ≠ "_schema.json")
    (hsnapshot : ∀ s, name ≠ Snapshot.name s) :
    SameFileAt place tree (leaves tree layout now payload) := by
  apply (touches_leaves tree layout now payload).sameFileAt
  intro path hpath hlocate
  rcases isNamed_of_written hpath hlocate with hother | hother | ⟨s, -, hother⟩
  · exact hstate (hname.unique hother)
  · exact hschema (hname.unique hother)
  · exact hsnapshot s (hname.unique hother)

/-- A snapshot at another path lies under another name, for all snapshots of a project lie in
    its log directory. -/
theorem sameFileAt_snapshot {s : Session} {place : Location}
    (hother : Snapshot.path layout s ∉ written tree layout now payload)
    (hlocate : (leaves tree layout now payload).locate (Snapshot.path layout s) = .ok place) :
    SameFileAt place tree (leaves tree layout now payload) := by
  have hname := Snapshot.isNamed_path hlocate
  apply (touches_leaves tree layout now payload).sameFileAt
  intro path hpath hsame
  rcases isNamed_of_written hpath hsame with hwrong | hwrong | ⟨t, rfl, hwrong⟩
  · exact Snapshot.name_ne (by decide) s (hname.unique hwrong)
  · exact Snapshot.name_ne (by decide) s (hname.unique hwrong)
  · rw [Snapshot.path_eq, ← hname.unique hwrong, ← Snapshot.path_eq] at hpath
    exact hother hpath

end Handler

/-! ### Runs of events -/

/-- An event in a project, and what is wrong with the disk when it comes. -/
structure Handling where
  faults : List (Location × Fault)
  layout : Layout
  now : Moment
  payload : Payload

namespace Handling

def leaves (tree : FileTree) (event : Handling) : FileTree :=
  Handler.leaves { tree with faults := event.faults } event.layout event.now event.payload

/-- The files after some events, in whatever projects. -/
def leavesAll (tree : FileTree) (events : List Handling) : FileTree := events.foldl leaves tree

@[simp] theorem leavesAll_nil (tree : FileTree) : leavesAll tree [] = tree := by
  rw [leavesAll, List.foldl_nil]

@[simp] theorem leavesAll_cons (tree : FileTree) (event : Handling) (events : List Handling) :
    leavesAll tree (event :: events) = leavesAll (leaves tree event) events := by
  rw [leavesAll, List.foldl_cons, leavesAll]

theorem keepsSchemas_leaves (tree : FileTree) (event : Handling) :
    KeepsSchemas (IsSchemaTaken event.faults) tree (leaves tree event) := by
  have hkeeps := Handler.keepsSchemas_leaves { tree with faults := event.faults } event.layout
    event.now event.payload
  exact ⟨hkeeps.stays, hkeeps.appears⟩

/-- Whatever is wrong with the disk, the schema of a project that is there is read as before. -/
theorem read?_schemaFile_leaves {tree : FileTree} {layout : Layout} {octets : List UInt8}
    (hread : tree.read? layout.schemaFile = some octets) (event : Handling) :
    (leaves tree event).read? layout.schemaFile = some octets := by
  obtain ⟨place, hlocate, hfile⟩ := read?_eq_some_iff.1 hread
  have hstays := (keepsSchemas_leaves tree event).stays place octets
    (Layout.isNamed_schemaFile hlocate) hfile
  have hsame : Keeps (fun _ => True) tree { tree with faults := event.faults } :=
    ⟨rfl, fun _ _ _ hnode => hnode⟩
  have htouches := Handler.touches_leaves { tree with faults := event.faults } event.layout
    event.now event.payload
  exact read?_eq_some_iff.2 ⟨place, htouches.keeps.locate (hsame.locate hlocate), hstays⟩

/-- The induction is on the run: each event keeps the schemas that the one before has left. -/
theorem keepsSchemas_leavesAll {may : Location → List UInt8 → Prop} {events : List Handling}
    (hmay : ∀ event ∈ events, ∀ place octets, IsSchemaTaken event.faults place octets →
      may place octets) (tree : FileTree) : KeepsSchemas may tree (leavesAll tree events) := by
  induction events generalizing tree with
  | nil => exact .refl may tree
  | cons event events ih =>
    rw [List.forall_mem_cons] at hmay
    rw [leavesAll_cons]
    exact ((keepsSchemas_leaves tree event).mono hmay.1).trans (ih hmay.2 _)

end Handling

/-- A schema that a run of events has made: the front of its text, and all of it unless one
    of the events found no room for that. -/
def IsSchemaOf (events : List Handling) (place : Location) (octets : List UInt8) : Prop :=
  octets <+: Utf8.encode Schema.text ∧
    ((∀ event ∈ events, ∀ room, event.faults.lookup place ≠ some (.full room)) →
      octets = Utf8.encode Schema.text)

theorem Handling.keepsSchemas (tree : FileTree) (events : List Handling) :
    KeepsSchemas (IsSchemaOf events) tree (leavesAll tree events) := by
  apply keepsSchemas_leavesAll
  rintro event hevent place octets rfl
  constructor
  · exact Fault.taken_isPrefix _ _
  · intro hroom
    exact Fault.taken_of_ne_full (hroom event hevent) _

/-- Handling an event changes no file, makes none and takes none away but at the paths that
    it may write: those of the state file, and of the schema and the snapshot if one is due.
    It does not matter whether its writes succeed, or where they fail. In particular no
    temporary file is left, and the settings of all projects, the snapshots at other paths and
    whatever can be read elsewhere stay as they are. Where recording is turned off, no file is
    different at all. Over all runs of events, in whatever projects and whatever becomes of the
    disk, a schema that is there stays as it is. One that is new has the text of the schema
    exactly as far as there was room for it when it was made. -/
theorem event_touches_own_files (tree : FileTree) (layout : Layout) (now : Moment)
    (payload : Payload) :
    let left := Handler.leaves tree layout now payload
    let own := Handler.written tree layout now payload
    (∀ place, (∀ path ∈ own, left.locate path ≠ .ok place) → SameFileAt place tree left) ∧
    (∀ place number, place.IsNamed (temporaryName number) → SameFileAt place tree left) ∧
    (∀ (project : Layout) (place : Location), left.locate project.settingsFile = .ok place →
      SameFileAt place tree left) ∧
    (∀ s place, Snapshot.path layout s ∉ own →
      left.locate (Snapshot.path layout s) = .ok place → SameFileAt place tree left) ∧
    (∀ path octets, tree.read? path = some octets →
      (∀ writes ∈ own, ∀ place, left.locate path = .ok place → left.locate writes ≠ .ok place) →
      left.read? path = some octets) ∧
    ((Handler.settings tree layout).enabled = false → left = tree) ∧
    KeepsSchemas (fun place octets => octets = tree.taken place (Utf8.encode Schema.text))
      tree left ∧
    ∀ events, KeepsSchemas (IsSchemaOf events) tree (Handling.leavesAll tree events) := by
  intro left own
  have htouches : Touches own tree left := Handler.touches_leaves tree layout now payload
  refine ⟨?_, ?_, ?_, ?_, ?_, ?_, ?_, ?_⟩
  · intro place hplace
    exact htouches.sameFileAt hplace
  · intro place number hname
    apply Handler.sameFileAt_of_isNamed hname
    · exact temporaryName_ne number (by decide)
    · exact temporaryName_ne number (by decide)
    · exact Snapshot.temporaryName_ne_name number
  · intro project place hlocate
    apply Handler.sameFileAt_of_isNamed (Layout.isNamed_settingsFile hlocate)
    · decide
    · decide
    · intro s
      exact (Snapshot.name_ne (by decide) s).symm
  · intro s place hother hlocate
    exact Handler.sameFileAt_snapshot hother hlocate
  · intro path octets hread hother
    exact htouches.read? hother hread
  · intro hdisabled
    exact Handler.leaves_of_disabled hdisabled
  · exact Handler.keepsSchemas_leaves tree layout now payload
  · exact Handling.keepsSchemas tree

/-- A log directory where somebody has written a schema of their own. -/
def projectWithSchema : FileTree :=
  let made := (FileTree.bare.makeDirectories (Layout.logDirectory ⟨"/p"⟩)).1
  (made.write (Layout.schemaFile ⟨"/p"⟩) (Utf8.encode ['?'])).1

/-- A prompt opens a session there. -/
def promptedProject : FileTree :=
  Handler.leaves projectWithSchema ⟨"/p"⟩ .epoch (.named "UserPromptSubmit")

theorem event_touches_own_files_prompt :
    promptedProject.isThere (Layout.stateFile ⟨"/p"⟩) = true ∧
      promptedProject.read? (Layout.schemaFile ⟨"/p"⟩) = some (Utf8.encode ['?']) ∧
      ∀ place, promptedProject.locate (Layout.settingsFile ⟨"/p"⟩) = .ok place →
        SameFileAt place projectWithSchema promptedProject := by
  obtain ⟨-, -, hsettings, -, -, -, hkeeps, -⟩ :=
    event_touches_own_files projectWithSchema ⟨"/p"⟩ .epoch (.named "UserPromptSubmit")
  have hthere : promptedProject.isThere (Layout.stateFile ⟨"/p"⟩) = true := by decide +kernel
  refine ⟨hthere, ?_, hsettings ⟨"/p"⟩⟩
  have hread : projectWithSchema.read? (Layout.schemaFile ⟨"/p"⟩) =
      some (Utf8.encode ['?']) := by decide +kernel
  obtain ⟨place, hlocate, hfile⟩ := read?_eq_some_iff.1 hread
  have hstays := hkeeps.stays place _ (Layout.isNamed_schemaFile hlocate) hfile
  have htouches := Handler.touches_leaves projectWithSchema ⟨"/p"⟩ .epoch
    (.named "UserPromptSubmit")
  exact read?_eq_some_iff.2 ⟨place, htouches.keeps.locate hlocate, hstays⟩

/-- Where the schema of a project lies. -/
def schemaPlace : Location :=
  .ofNames (["p", ".claude", "logs", "lightweight", "_schema.json"].map String.toList)

/-- A prompt, while there is no room for the schema. -/
def promptOnFullDisk : Handling where
  faults := [(schemaPlace, .full 0)]
  layout := ⟨"/p"⟩
  now := .epoch
  payload := .named "UserPromptSubmit"

/-- The next one, when there is room again. -/
def promptOnSoundDisk : Handling := { promptOnFullDisk with faults := [] }

/-- The first prompt leaves an empty schema, and the second one lets it be. -/
theorem not_all_schemas_whole :
    (Handling.leavesAll .bare [promptOnFullDisk]).read? (Layout.schemaFile ⟨"/p"⟩) = some [] ∧
      (Handling.leavesAll .bare [promptOnFullDisk, promptOnSoundDisk]).read?
        (Layout.schemaFile ⟨"/p"⟩) = some [] ∧
      ¬∀ (tree : FileTree) (events : List Handling),
        KeepsSchemas (fun _ octets => octets = Utf8.encode Schema.text) tree
          (Handling.leavesAll tree events) := by
  have hread : (Handling.leavesAll .bare [promptOnFullDisk]).read?
      (Layout.schemaFile ⟨"/p"⟩) = some [] := by decide +kernel
  have hrun : Handling.leavesAll .bare [promptOnFullDisk, promptOnSoundDisk] =
      Handling.leaves (Handling.leavesAll .bare [promptOnFullDisk]) promptOnSoundDisk := by
    simp
  have hagain := Handling.read?_schemaFile_leaves hread promptOnSoundDisk
  rw [← hrun] at hagain
  refine ⟨hread, hagain, ?_⟩
  intro hall
  obtain ⟨place, hlocate, hfile⟩ := read?_eq_some_iff.1 hread
  rcases (hall _ _).appears place [] (Layout.isNamed_schemaFile hlocate) hfile with
    hbefore | ⟨-, hempty⟩
  · rw [node?, bare] at hbefore
    split at hbefore <;> cases hbefore
  · have hnonempty : Utf8.encode Schema.text ≠ [] := by decide +kernel
    exact hnonempty hempty.symm

end SessionLog
