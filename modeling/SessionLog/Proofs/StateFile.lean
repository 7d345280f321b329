/-
  SessionLog/Proofs/StateFile.lean
  ================================
  **What is kept in the state file is read from it.**

  A session that is kept is read back as it was, and where none is kept none is read. The
  replacement of the file touches that file and no other, whether or not it succeeds, and
  where it fails it has touched none at all.
-/
import SessionLog.Proofs.FileTree.Touches
import SessionLog.Proofs.Machine
import SessionLog.Proofs.Session.Record
import SessionLog.Proofs.Text.Utf8
import SessionLog.StateFile

namespace SessionLog

/-- A session as it comes from events: of the current version, and with times of a kind. -/
structure Session.IsKept (p : DateTime → Prop) (s : Session) : Prop where
  version : s.version = Session.currentVersion
  times : s.HasTimes p

namespace StateFile

/-! ### Texts -/

theorem ofText_of_parse? {text : List Char} {value : Json} {s : Session}
    (hblank : Text.isAllBlank text = false) (hparse : Json.parse? text = some value)
    (hread : Session.ofJson? value = some s) (hversion : s.version = Session.currentVersion) :
    ofText text = (some s, []) := by
  rw [ofText, hblank, hparse]
  simp only [Bool.false_eq_true, if_false]
  rw [ofJson]
  · rw [hread]
    simp [hversion]
  · rintro rfl
    cases hread

theorem ofText_text {s : Session} (h : s.IsKept fun t => t.time.LeapEndsMinute) :
    ofText s.text = (some s, []) := by
  obtain ⟨read, hreads, hread⟩ := s.conveys 124 h.times
  exact ofText_of_parse? rfl hreads.compact.parse? hread h.version

@[simp] theorem ofText_closedText : ofText closedText = (none, []) := by
  have hparse : Json.parse? closedText = some (.object []) := rfl
  have hblank : Text.isAllBlank closedText = false := rfl
  rw [ofText, hblank, hparse]
  rfl

theorem read_eq_ofText {tree : FileTree} {path : String} {text : List Char}
    (h : tree.read? path = some (Utf8.encode text)) : read tree path = ofText text := by
  rw [read, h, Option.bind_some, Utf8.decode?_encode]

/-! ### Replacing -/

/-- A swap comes to its end if the temporary file takes the text and can be moved. -/
theorem swap_eq_ok_iff {tree left : FileTree} {place : Location} {path : String}
    {text : List Char} : swap tree place path text = (left, .ok ()) ↔
      tree.Accepts place (Utf8.encode text) ∧
        (tree.put place (.file (Utf8.encode text))).moveTo place (Utf8.encode text) path =
          .ok left := by
  constructor
  · intro h
    rw [swap] at h
    split at h
    · cases h
    · rename_i hopened
      split at h
      · cases h
      · rename_i hall
        have hwhole : tree.taken place (Utf8.encode text) = Utf8.encode text :=
          Fault.takesAll_iff.1 (eq_true_of_ne_false hall)
        split at h
        · cases h
        · rename_i hflushed
          rw [hwhole] at h
          split at h
          · rename_i moved hmoved
            cases h
            exact ⟨⟨hopened, hwhole, hflushed⟩, hmoved⟩
          · cases h
  · rintro ⟨haccepts, hmoved⟩
    have hall : tree.takesAll place (Utf8.encode text) = true :=
      Fault.takesAll_iff.2 haccepts.whole
    rw [swap, if_neg haccepts.opened, hall, if_neg (by decide),
      if_neg haccepts.flushed, haccepts.whole]
    simp only [hmoved]

/-- A swap that fails has made no file, or one that it has taken away again. -/
theorem swap_eq_error {tree left : FileTree} {place : Location} {path : String}
    {text : List Char} {error : StateFileError}
    (h : swap tree place path text = (left, .error error)) :
    left = tree ∨ ∃ octets, left = (tree.put place (.file octets)).erase place := by
  rw [swap] at h
  split at h
  · cases h
    exact Or.inl rfl
  · right
    split at h
    · cases h
      exact ⟨_, rfl⟩
    · split at h
      · cases h
        exact ⟨_, rfl⟩
      · split at h
        · cases h
        · cases h
          exact ⟨_, rfl⟩

/-- A replacement that succeeds finds its directory made, a free name in it that takes the
    text, and a place for the file. -/
theorem replace_eq_ok_iff {tree left : FileTree} {path : String} {text : List Char} :
    replace tree path text = (left, .ok ()) ↔
      ∃ parent made source, Path.parent? path = some parent ∧
        tree.makeDirectories parent = (made, true) ∧ made.temporary? parent = some source ∧
        made.Accepts source (Utf8.encode text) ∧
        (made.put source (.file (Utf8.encode text))).moveTo source (Utf8.encode text) path =
          .ok left := by
  constructor
  · intro h
    rw [replace] at h
    split at h
    · cases h
    · rename_i parent hparent
      split at h
      · cases h
      · rename_i made hmake
        split at h
        · cases h
        · rename_i source hsource
          exact ⟨parent, made, source, hparent, hmake, hsource, swap_eq_ok_iff.1 h⟩
  · rintro ⟨parent, made, source, hparent, hmake, hsource, hswap⟩
    rw [replace, hparent]
    simp only [hmake, hsource]
    exact swap_eq_ok_iff.2 hswap

/-- A replacement that succeeds writes the file at the path and makes directories, and
    changes nothing else. -/
theorem replace_spec {tree left : FileTree} {path : String} {text : List Char}
    (h : replace tree path text = (left, .ok ())) :
    ∃ place, left.locate path = .ok place ∧
      left.node? place = some (.file (Utf8.encode text)) ∧
      FileTree.Changes (fun _ => True) (fun other => other = place) tree left := by
  obtain ⟨parent, made, source, -, hmake, hsource, -, hmoved⟩ := replace_eq_ok_iff.1 h
  have hmade := FileTree.changes_makeDirectories tree parent
  rw [hmake] at hmade
  have hempty := FileTree.node?_of_temporary? hsource
  obtain ⟨place, hlocate, hnode, hmove⟩ := FileTree.moveTo_spec hempty hmoved
  exact ⟨place, hlocate, hnode, (hmade.mono (fun _ => id) fun _ => False.elim).trans
    (hmove.mono (fun _ => False.elim) fun _ => id)⟩

/-- A replacement that fails makes directories at most: the temporary file is taken away
    again. -/
theorem changes_of_replace_error {tree left : FileTree} {path : String} {text : List Char}
    {error : StateFileError} (h : replace tree path text = (left, .error error)) :
    FileTree.Changes (fun _ => True) (fun _ => False) tree left := by
  rw [replace] at h
  split at h
  · cases h
    exact .refl _ _ tree
  · rename_i parent _
    have hmade := FileTree.changes_makeDirectories tree parent
    split at h
    · rename_i made hmake
      rw [hmake] at hmade
      cases h
      exact hmade
    · rename_i made hmake
      rw [hmake] at hmade
      split at h
      · cases h
        exact hmade
      · rename_i source hsource
        rcases swap_eq_error h with rfl | ⟨octets, rfl⟩
        · exact hmade
        · have hempty := FileTree.node?_of_temporary? hsource
          exact hmade.trans
            ((FileTree.changes_erase_put hempty octets).mono (fun _ => False.elim) fun _ => id)

/-- Whether or not it succeeds, a replacement touches the file at the path alone. -/
theorem touches_replace (tree : FileTree) (path : String) (text : List Char) :
    FileTree.Touches [path] tree (replace tree path text).1 := by
  rcases hreplace : replace tree path text with ⟨left, error | done⟩
  · exact .of_changes (changes_of_replace_error hreplace)
  · obtain ⟨place, hlocate, -, hchanges⟩ := replace_spec hreplace
    exact .of_written hlocate hchanges

/-! ### All or nothing -/

/-- What has become of the files when the file at a path was to be replaced by a text. -/
structure AllOrNothing (tree : FileTree) (path : String) (text : List Char)
    (result : FileTree × Except StateFileError Unit) : Prop where
  /-- After a failure every file is as it was and no other is there, and what could be read
      is still read. -/
  nothing : ∀ error, result.2 = .error error →
    (∀ place, FileTree.SameFileAt place tree result.1) ∧
      ∀ other octets, tree.read? other = some octets → result.1.read? other = some octets
  /-- After a success the text is all that the file at the path has, and every other file is
      as it was. -/
  all : result.2 = .ok () →
    ∃ place, result.1.locate path = .ok place ∧
      result.1.node? place = some (.file (Utf8.encode text)) ∧
      ∀ other, other ≠ place → FileTree.SameFileAt other tree result.1
  /-- In either case no directory goes away. -/
  directories : ∀ place, tree.node? place = some .directory →
    result.1.node? place = some .directory

theorem allOrNothing_replace (tree : FileTree) (path : String) (text : List Char) :
    AllOrNothing tree path text (replace tree path text) := by
  rcases hreplace : replace tree path text with ⟨left, error | done⟩
  · have hchanges := changes_of_replace_error hreplace
    refine ⟨fun _ _ => ⟨fun place octets => ?_, fun other octets hread => ?_⟩, ?_, ?_⟩
    · exact hchanges.file_iff id
    · exact hchanges.keeps.read? hread fun _ _ => id
    · intro hok
      cases hok
    · intro place hdirectory
      exact hchanges.keeps.node place .directory (Or.inl rfl) hdirectory
  · obtain ⟨place, hlocate, hnode, hchanges⟩ := replace_spec hreplace
    refine ⟨?_, fun _ => ⟨place, hlocate, hnode, fun other hother octets => ?_⟩, ?_⟩
    · intro error herror
      cases herror
    · exact hchanges.file_iff hother
    · intro other hdirectory
      exact hchanges.keeps.node other .directory (Or.inl rfl) hdirectory

/-- Whatever the files are and wherever the path leads: to store a session and to clear the
    file is done as a whole, or no file is any different. -/
theorem store_and_clear_all_or_nothing (tree : FileTree) (path : String) (s : Session) :
    AllOrNothing tree path s.text (store tree path s) ∧
      AllOrNothing tree path closedText (clear tree path) := by
  rw [store.eq_def, clear.eq_def]
  exact ⟨allOrNothing_replace tree path s.text, allOrNothing_replace tree path closedText⟩

def newSession : Session := .fresh .epoch "a" "t" "/" ""

/-- A cleared file, and beside it room for one octet in a temporary file. -/
def clearedOnFullDisk : FileTree :=
  { (clear .bare "s").1 with
    faults := [(Location.root.child (FileTree.temporaryName 0).toList, .full 1)] }

theorem store_and_clear_all_or_nothing_fullDisk :
    (store .bare "s" newSession).2 = .ok () ∧
      (store .bare "s" newSession).1.read? "s" = some (Utf8.encode newSession.text) ∧
      (store clearedOnFullDisk "s" newSession).2 = .error .write ∧
      (store clearedOnFullDisk "s" newSession).1.read? "s" = some (Utf8.encode closedText) := by
  have hok : (store .bare "s" newSession).2 = .ok () := by decide +kernel
  have herror : (store clearedOnFullDisk "s" newSession).2 = .error .write := by decide +kernel
  have hread : clearedOnFullDisk.read? "s" = some (Utf8.encode closedText) := by decide +kernel
  obtain ⟨hstored, -⟩ := store_and_clear_all_or_nothing .bare "s" newSession
  obtain ⟨place, hlocate, hnode, -⟩ := hstored.all hok
  obtain ⟨hfailed, -⟩ := store_and_clear_all_or_nothing clearedOnFullDisk "s" newSession
  obtain ⟨-, hkept⟩ := hfailed.nothing .write herror
  exact ⟨hok, FileTree.read?_eq_some_iff.2 ⟨place, hlocate, hnode⟩, herror, hkept "s" _ hread⟩

/-- A directory is in the place of the file: it is not replaced, and of the temporary file
    nothing is left. -/
example :
    let tree : FileTree := ⟨.root, [(Location.root.child ['s'], .directory)], []⟩
    (replace tree "s" closedText).2 = .error (.replace "s") ∧
      (replace tree "s" closedText).1.nodes = tree.nodes := by
  decide +kernel

/-- The file at the path can be replaced, by whatever text. -/
def Replaceable (tree : FileTree) (path : String) : Prop :=
  ∀ text, (replace tree path text).2 = .ok ()

/-- Where nothing is wrong with the disk, a file that can be cleared can be replaced. -/
theorem replaceable_of_clear {tree : FileTree} {path : String} (hfaults : tree.faults = [])
    (h : (clear tree path).2 = .ok ()) : Replaceable tree path := by
  intro text
  obtain ⟨parent, made, source, hparent, hmake, hsource, -, hmoved⟩ :=
    replace_eq_ok_iff.1 (Prod.ext rfl h)
  have hmade := FileTree.changes_makeDirectories tree parent
  rw [hmake] at hmade
  have hfault : made.fault? source = none := by
    rw [FileTree.fault?, hmade.faults, hfaults]
    rfl
  have hempty := FileTree.node?_of_temporary? hsource
  obtain ⟨left, hleft⟩ := FileTree.exists_moveTo_of_moveTo (.refl made) hempty hempty hmoved
  have hreplace : replace tree path text = (left, .ok ()) :=
    replace_eq_ok_iff.2 ⟨parent, made, source, hparent, hmake, hsource,
      FileTree.accepts_of_fault?_eq_none hfault _, hleft⟩
  exact congrArg Prod.snd hreplace

theorem read?_of_replace {tree left : FileTree} {path : String} {text : List Char}
    (h : replace tree path text = (left, .ok ())) :
    left.read? path = some (Utf8.encode text) := by
  obtain ⟨place, hlocate, hnode, -⟩ := replace_spec h
  exact FileTree.read?_eq_some_iff.2 ⟨place, hlocate, hnode⟩

theorem read_of_store {tree left : FileTree} {path : String} {s : Session}
    (hs : s.IsKept fun t => t.time.LeapEndsMinute) (h : store tree path s = (left, .ok ())) :
    read left path = (some s, []) := by
  rw [read_eq_ofText (read?_of_replace h), ofText_text hs]

theorem read?_replace {tree : FileTree} {path : String} {text : List Char}
    (h : (replace tree path text).2 = .ok ()) :
    (replace tree path text).1.read? path = some (Utf8.encode text) := by
  rcases hreplace : replace tree path text with ⟨left, result⟩
  rw [hreplace] at h
  obtain rfl : result = .ok () := h
  exact read?_of_replace hreplace

theorem read?_store {tree : FileTree} {path : String} {s : Session}
    (h : (store tree path s).2 = .ok ()) :
    (store tree path s).1.read? path = some (Utf8.encode s.text) := by
  rw [store.eq_def] at h ⊢
  exact read?_replace h

theorem read?_clear {tree : FileTree} {path : String} (h : (clear tree path).2 = .ok ()) :
    (clear tree path).1.read? path = some (Utf8.encode closedText) := by
  rw [clear.eq_def] at h ⊢
  exact read?_replace h

end StateFile

end SessionLog
