/-
  SessionLog/Proofs/Layout.lean
  =============================
  **The files of a log are different files.**

  The state file, the schema and the snapshots lie in one directory under names of their
  own, and the settings lie above it. Dates, times and session fragments have no slashes, so
  a snapshot has one name, and by its ending it is none of the other two.
-/
import SessionLog.Proofs.FileTree.Touches
import SessionLog.Proofs.Text.Digits
import SessionLog.Proofs.Text.Split
import SessionLog.Snapshot.File

namespace SessionLog

open FileTree (IsPlain)

/-! ### Names without slashes -/

namespace Text

theorem slash_not_mem_of_allDigits {ds : List Char} (h : AllDigits ds) : '/' ∉ ds := by
  intro hmem
  cases h '/' hmem

end Text

open Text

theorem slash_not_mem_date (d : Date) : '/' ∉ d.text := by
  have hpadded (width n : Nat) : '/' ∉ padded width n :=
    slash_not_mem_of_allDigits (allDigits_padded width n)
  have hyear : '/' ∉ yearText d.year := by
    rw [yearText]
    split
    · exact hpadded _ _
    · rw [List.mem_cons, not_or]
      refine ⟨?_, hpadded _ _⟩
      split <;> decide
  simp only [Date.text, List.mem_append, List.mem_cons, hyear, hpadded, false_or, or_false]
  decide

theorem slash_not_mem_hourMinute (t : DateTime) : '/' ∉ t.hourMinuteText := by
  have hpadded (width n : Nat) : '/' ∉ padded width n :=
    slash_not_mem_of_allDigits (allDigits_padded width n)
  simp [DateTime.hourMinuteText, hpadded]

theorem mem_of_mem_stem {name : List Char} {c : Char} (h : c ∈ Path.stem name) : c ∈ name := by
  rw [Path.stem] at h
  split at h
  · exact h
  · have hmem := List.mem_of_mem_tail (List.mem_reverse.1 h)
    exact List.mem_reverse.1 ((List.dropWhile_sublist _).subset hmem)

/-- The last name of a path is a piece of it that leads further down. -/
theorem Path.isPlain_of_baseName? {path name : List Char} (h : baseName? path = some name) :
    IsPlain name := by
  rw [baseName?] at h
  split at h
  · cases h
  · rename_i last hlast
    split at h
    · cases h
    · rename_i hdots
      rw [← Option.some.inj h]
      have hname := List.mem_of_getLast? hlast
      rw [names, List.mem_filter, decide_eq_true_iff] at hname
      obtain ⟨hpiece, hne, hdot⟩ := hname
      exact ⟨hne, hdot, hdots, separator_not_mem_of_mem_split hpiece⟩

theorem slash_not_mem_fragment (transcriptPath : String) :
    '/' ∉ (sessionFragment transcriptPath).toList := by
  rw [sessionFragment]
  split
  · decide
  · rename_i name hname
    split
    · decide
    · rw [String.toList_ofList]
      intro hmem
      have hstem := (List.takeWhile_sublist _).subset hmem
      exact (Path.isPlain_of_baseName? hname).no_slash (mem_of_mem_stem hstem)

/-! ### Paths below the log directory -/

theorem Path.isAbsolute_of_not_mem {path : List Char} (h : '/' ∉ path) :
    Path.isAbsolute path = false := by
  cases path with
  | nil => rfl
  | cons c path =>
    rw [List.mem_cons, not_or] at h
    simp [Path.isAbsolute, Ne.symm h.1]

/-- A name is joined to a directory with a slash unless that ends in one. -/
theorem Path.join_name {directory name : String} (hname : '/' ∉ name.toList)
    (hdirectory : directory ≠ "") (hlast : directory.toList.getLast? ≠ some '/') :
    Path.join directory name = directory ++ "/" ++ name := by
  rw [Path.join, if_neg, if_neg hlast]
  rw [Path.isAbsolute_of_not_mem hname]
  simp [hdirectory]

theorem Path.getLast?_join (directory : String) {name : String} {c : Char}
    (hlast : name.toList.getLast? = some c) :
    (Path.join directory name).toList.getLast? = some c := by
  rw [Path.join]
  split
  · exact hlast
  · split
    · rw [String.toList_append, List.getLast?_append, hlast]
      rfl
    · rw [String.toList_append, List.getLast?_append, hlast]
      rfl

/-- The last piece of a path below a directory is the name. -/
theorem Text.reverse_split_below (directory name : String) (hname : '/' ∉ name.toList) :
    (split '/' (directory ++ "/" ++ name).toList).reverse =
      name.toList :: (split '/' directory.toList).reverse := by
  have htext : (directory ++ "/" ++ name).toList = directory.toList ++ '/' :: name.toList := by
    rw [String.toList_append, String.toList_append, List.append_assoc]
    rfl
  rw [htext, split_append, split_of_not_mem hname, List.reverse_append]
  rfl

namespace Layout

@[simp] theorem getLast?_logDirectory (layout : Layout) :
    layout.logDirectory.toList.getLast? = some 't' :=
  Path.getLast?_join _ (by decide)

theorem join_logDirectory (layout : Layout) {name : String} (hname : '/' ∉ name.toList) :
    Path.join layout.logDirectory name = layout.logDirectory ++ "/" ++ name := by
  apply Path.join_name hname
  · intro hempty
    have hlast := layout.getLast?_logDirectory
    rw [hempty] at hlast
    cases hlast
  · rw [layout.getLast?_logDirectory]
    decide

theorem stateFile_eq (layout : Layout) :
    layout.stateFile = layout.logDirectory ++ "/" ++ ".state.json" :=
  layout.join_logDirectory (by decide)

theorem schemaFile_eq (layout : Layout) :
    layout.schemaFile = layout.logDirectory ++ "/" ++ "_schema.json" :=
  layout.join_logDirectory (by decide)

theorem settingsFile_eq (layout : Layout) :
    layout.settingsFile = layout.settingsDirectory ++ "/" ++ "log-lightweight.config.json" := by
  have hlast : layout.settingsDirectory.toList.getLast? = some 'e' :=
    Path.getLast?_join _ (by decide)
  apply Path.join_name (by decide)
  · intro hempty
    rw [hempty] at hlast
    cases hlast
  · rw [hlast]
    decide

theorem logDirectory_eq (layout : Layout) :
    ∃ directory, layout.logDirectory = directory ++ "/" ++ "lightweight" := by
  have hlast : (Path.join layout.settingsDirectory "logs").toList.getLast? = some 's' :=
    Path.getLast?_join _ (by decide)
  refine ⟨Path.join layout.settingsDirectory "logs", ?_⟩
  apply Path.join_name (by decide)
  · intro hempty
    rw [hempty] at hlast
    cases hlast
  · rw [hlast]
    decide

/-- The log directory is the directory of what has a plain name in it. Neither name is empty
    or a dot, so no piece of the path is dropped. -/
theorem parent?_below (layout : Layout) {name : String} (hname : IsPlain name.toList) :
    Path.parent? (layout.logDirectory ++ "/" ++ name) = some layout.logDirectory := by
  obtain ⟨directory, hlog⟩ := layout.logDirectory_eq
  have hsplit := Text.reverse_split_below layout.logDirectory name hname.no_slash
  have hfront := Text.reverse_split_below directory "lightweight" (by decide)
  rw [← hlog] at hfront
  have hdirectory (front : List (List Char)) :
      Path.dropVoid ("lightweight".toList :: front) = "lightweight".toList :: front := rfl
  have hlast (front : List (List Char)) :
      Path.dropVoid (name.toList :: front) = name.toList :: front := by
    rw [Path.dropVoid, if_neg]
    simp [Path.isVoid, hname.ne_nil, hname.ne_dot]
  rw [Path.parent?, hsplit, hlast]
  simp only [hfront, hdirectory]
  rw [← hfront, Path.ofPieces, if_neg]
  · rw [List.reverse_reverse, Text.intercalate_split, String.ofList_toList]
  · rintro ⟨-, hnil⟩
    exact Text.split_ne_nil _ _ (List.reverse_eq_nil_iff.1 hnil)

end Layout

namespace FileTree

theorem toList_temporaryName (number : Nat) :
    (temporaryName number).toList = ".tmp".toList ++ padded 6 number := by
  rw [temporaryName, String.toList_append]
  exact congrArg _ String.toList_ofList

/-- The name of a temporary file ends in a digit. -/
theorem temporaryName_ne (number : Nat) {name : String}
    (hlast : name.toList.getLast?.all fun c => !isDigit c) : temporaryName number ≠ name := by
  rintro rfl
  have hne : padded 6 number ≠ [] := by
    intro hnil
    have hlength := length_padded 6 number
    rw [hnil, List.length_nil] at hlength
    omega
  have hdigit := allDigits_padded 6 number _ (List.getLast_mem hne)
  rw [toList_temporaryName, List.getLast?_append, List.getLast?_eq_some_getLast hne,
    Option.some_or, Option.all_some, hdigit] at hlast
  cases hlast

end FileTree

namespace Snapshot

def name (s : Session) : String :=
  Layout.snapshotName (String.ofList s.start.date.text) (String.ofList s.start.hourMinuteText)
    (sessionFragment s.transcriptPath)

theorem toList_name (s : Session) : (name s).toList =
    (s.start.date.text ++ '-' :: (s.start.hourMinuteText ++ '-' ::
      (sessionFragment s.transcriptPath).toList)) ++ ['.', 'l', 'o', 'g'] := by
  simp only [name, Layout.snapshotName, String.toList_append, String.toList_ofList,
    List.append_assoc, List.cons_append]
  rfl

theorem slash_not_mem_name (s : Session) : '/' ∉ (name s).toList := by
  rw [toList_name]
  simp only [List.mem_append, List.mem_cons, slash_not_mem_date, slash_not_mem_hourMinute,
    slash_not_mem_fragment, false_or]
  decide

theorem path_eq (layout : Layout) (s : Session) :
    path layout s = layout.logDirectory ++ "/" ++ name s :=
  layout.join_logDirectory (slash_not_mem_name s)

/-- The name of a snapshot ends like no other name in the log directory. -/
theorem getLast?_name (s : Session) : (name s).toList.getLast? = some 'g' := by
  rw [toList_name, List.getLast?_append]
  rfl

theorem isPlain_name (s : Session) : IsPlain (name s).toList := by
  have hlast := getLast?_name s
  refine ⟨?_, ?_, ?_, slash_not_mem_name s⟩ <;> intro h <;> rw [h] at hlast <;> cases hlast

theorem name_ne {other : String} (hlast : other.toList.getLast? ≠ some 'g') (s : Session) :
    name s ≠ other := by
  rintro rfl
  exact hlast (getLast?_name s)

theorem temporaryName_ne_name (number : Nat) (s : Session) :
    FileTree.temporaryName number ≠ name s := by
  apply FileTree.temporaryName_ne
  rw [getLast?_name]
  rfl

end Snapshot

namespace Layout

theorem isPlain_state : IsPlain ".state.json".toList := by
  refine ⟨?_, ?_, ?_, ?_⟩ <;> decide

theorem isPlain_schema : IsPlain "_schema.json".toList := by
  refine ⟨?_, ?_, ?_, ?_⟩ <;> decide

theorem isPlain_settings : IsPlain "log-lightweight.config.json".toList := by
  refine ⟨?_, ?_, ?_, ?_⟩ <;> decide

/-! ### Places -/

variable {layout : Layout} {tree : FileTree} {place : Location}

theorem isNamed_stateFile (h : tree.locate layout.stateFile = .ok place) :
    place.IsNamed ".state.json" := by
  rw [stateFile_eq] at h
  exact FileTree.isNamed_of_locate isPlain_state h

theorem isNamed_schemaFile (h : tree.locate layout.schemaFile = .ok place) :
    place.IsNamed "_schema.json" := by
  rw [schemaFile_eq] at h
  exact FileTree.isNamed_of_locate isPlain_schema h

theorem isNamed_settingsFile (h : tree.locate layout.settingsFile = .ok place) :
    place.IsNamed "log-lightweight.config.json" := by
  rw [settingsFile_eq] at h
  exact FileTree.isNamed_of_locate isPlain_settings h

end Layout

theorem Snapshot.isNamed_path {layout : Layout} {tree : FileTree} {place : Location}
    {s : Session} (h : tree.locate (path layout s) = .ok place) : place.IsNamed (name s) := by
  rw [path_eq] at h
  exact FileTree.isNamed_of_locate (isPlain_name s) h

end SessionLog
