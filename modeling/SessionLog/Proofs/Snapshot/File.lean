/-
  SessionLog/Proofs/Snapshot/File.lean
  ====================================
  **Writing a snapshot changes the snapshot and no other file of the log.**

  Whether or not a snapshot can be written, the state file is read as before. One that was
  written is at its path.
-/
import SessionLog.Proofs.Layout

namespace SessionLog

namespace Snapshot

open FileTree

variable {tree left : FileTree} {layout : Layout}

/-- The schema is written where nothing is, as far as the place takes it. -/
theorem ensureSchema_cases (tree : FileTree) (layout : Layout) :
    (ensureSchema tree layout).1 = tree ∨
      ∃ place, tree.locate layout.schemaFile = .ok place ∧ tree.node? place = none ∧
        (ensureSchema tree layout).1 =
          tree.put place (.file (tree.taken place (Utf8.encode Schema.text))) := by
  rw [ensureSchema]
  split
  · exact Or.inl rfl
  · rename_i hthere
    rcases tree.write_cases layout.schemaFile (Utf8.encode Schema.text) with
      ⟨refusal, herror⟩ | ⟨place, hlocate, -, hput⟩
    · rw [herror]
      exact Or.inl rfl
    · rw [isThere, lookup?, hlocate, Option.not_isSome_iff_eq_none] at hthere
      rw [hput]
      exact Or.inr ⟨place, hlocate, hthere, rfl⟩

theorem changesAt_ensureSchema (tree : FileTree) (layout : Layout) :
    ChangesAt (fun _ => False) [layout.schemaFile] tree (ensureSchema tree layout).1 := by
  rcases ensureSchema_cases tree layout with hsame | ⟨place, hlocate, hnone, hput⟩
  · rw [hsame]
    exact .refl _ _ tree
  · have hplace : tree.node? place ≠ some .directory := by simp [hnone]
    have hchanges := changes_put_file hplace (tree.taken place (Utf8.encode Schema.text))
    rw [hput]
    exact .of_written (hchanges.keeps.locate hlocate) hchanges

/-- A document is written in three steps: directories, the schema, the document. Each of the
    last two changes the file at its own path at most. -/
theorem writeDocument_steps (tree : FileTree) (layout : Layout) (path : String)
    (text : List Char) :
    let made := (tree.makeDirectories layout.logDirectory).1
    ∃ described, (described = made ∨ described = (ensureSchema made layout).1) ∧
      ChangesAt (fun _ => False) [path] described
        (writeDocument tree layout path text).1 := by
  delta writeDocument
  split
  · rename_i made hmake
    rw [hmake]
    exact ⟨made, Or.inl rfl, .refl _ _ made⟩
  · rename_i made hmake
    rw [hmake]
    split
    · rename_i described error hdescribe
      refine ⟨described, Or.inr ?_, .refl _ _ described⟩
      rw [hdescribe]
    · rename_i described hdescribe
      refine ⟨described, Or.inr ?_, ?_⟩
      · rw [hdescribe]
      · exact changesAt_write described path (Utf8.encode text)

/-- Once the directories are there, files are written and nothing else. -/
theorem changesAt_writeDocument (tree : FileTree) (layout : Layout) (path : String)
    (text : List Char) :
    ChangesAt (fun _ => False) [layout.schemaFile, path]
      (tree.makeDirectories layout.logDirectory).1 (writeDocument tree layout path text).1 := by
  obtain ⟨described, hdescribe, hwritten⟩ := writeDocument_steps tree layout path text
  have hdescribed : ChangesAt (fun _ => False) [layout.schemaFile]
      (tree.makeDirectories layout.logDirectory).1 described := by
    rcases hdescribe with rfl | rfl
    · exact .refl _ _ _
    · exact changesAt_ensureSchema _ layout
  exact (hdescribed.mono (by simp)).trans (hwritten.mono (by simp))

theorem touches_writeDocument (tree : FileTree) (layout : Layout) (path : String)
    (text : List Char) :
    Touches [layout.schemaFile, path] tree (writeDocument tree layout path text).1 := by
  have hmade : Touches [layout.schemaFile, path] tree
      (tree.makeDirectories layout.logDirectory).1 :=
    .of_changes (changes_makeDirectories tree layout.logDirectory)
  exact hmade.trans (changesAt_writeDocument tree layout path text).touches

/-- The state file stays whatever becomes of the snapshot. -/
theorem read?_stateFile_writeDocument (s : Session) (text : List Char) {octets : List UInt8}
    (hread : tree.read? layout.stateFile = some octets) :
    (writeDocument tree layout (path layout s) text).1.read? layout.stateFile =
      some octets := by
  apply (touches_writeDocument tree layout (path layout s) text).read? ?_ hread
  intro own hown place hstate hlocate
  have hname := Layout.isNamed_stateFile hstate
  simp only [List.mem_cons, List.not_mem_nil, or_false] at hown
  rcases hown with rfl | rfl
  · have hsame := hname.unique (Layout.isNamed_schemaFile hlocate)
    exact absurd hsame (by decide)
  · exact name_ne (by decide) s ((isNamed_path hlocate).unique hname)

theorem read?_writeDocument {path : String} {text : List Char}
    (h : writeDocument tree layout path text = (left, .ok ())) :
    left.read? path = some (Utf8.encode text) := by
  delta writeDocument at h
  split at h
  · cases h
  · split at h
    · cases h
    · rename_i described hdescribe
      rcases hwrite : described.write path (Utf8.encode text) with ⟨written, error | done⟩
      · rw [hwrite] at h
        cases h
      · rw [hwrite] at h
        cases h
        exact read?_of_write hwrite

theorem write_eq_writeDocument (tree : FileTree) (layout : Layout) (settings : Settings)
    (s : Session) (now : DateTime) :
    ((write tree layout settings s now).1, (write tree layout settings s now).2.2) =
      writeDocument tree layout (path layout s) (take s settings now).text := by
  delta write
  dsimp only
  rcases writeDocument tree layout (path layout s) (take s settings now).text with
    ⟨left, error | written⟩
  · rfl
  · rfl

theorem read?_stateFile_write (settings : Settings) (s : Session) (now : DateTime)
    {octets : List UInt8} (hread : tree.read? layout.stateFile = some octets) :
    (write tree layout settings s now).1.read? layout.stateFile = some octets := by
  have hkept := read?_stateFile_writeDocument s (take s settings now).text hread
  rwa [← write_eq_writeDocument tree layout settings s now] at hkept

end Snapshot

/-- Counting anew changes nothing of what names a snapshot. -/
theorem Session.path_counts? {s shown : Session} {source : TokenSource}
    {read : String → Option (List UInt8)} {offset : Offset}
    (h : s.counts? source read offset = some shown) (layout : Layout) :
    Snapshot.path layout shown = Snapshot.path layout s := by
  cases source with
  | counted =>
    cases h
    rfl
  | recounted =>
    obtain ⟨sum, -, rfl⟩ := Option.map_eq_some_iff.1 h
    rfl

end SessionLog
