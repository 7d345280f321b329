/-
  SessionLog/Proofs/StateFile/Replacement.lean
  ============================================
  **Where the state file can be replaced, it can be replaced after a snapshot.**

  To replace the state file takes its directory, a free name beside it and a place that is no
  directory. A snapshot makes the same directory first and then writes files alone, none of
  them under the name of a temporary file. So it takes nothing of this away, whether or not
  it can be written.
-/
import Mathlib.Data.List.Nodup
import Mathlib.Data.List.Perm.Subperm
import Mathlib.Data.Nat.Find
import Mathlib.Data.String.Basic
import SessionLog.Proofs.Snapshot.File
import SessionLog.Proofs.StateFile

namespace SessionLog

/-! ### Directories -/

namespace FileTree

variable {tree made left : FileTree}

/-- Directories that have been made need no making, as long as none is taken away. The
    induction is on the making: a directory that is there after a step stays. -/
theorem makeAlong_of_sameDirectories {place : Location} {names : List (List Char)}
    (h : tree.makeAlong place names = (made, true)) (hsame : SameDirectories made left) :
    left.makeAlong place names = (left, true) := by
  have hstays {earlier : FileTree} {start below : Location} {rest : List (List Char)}
      (hmade : earlier.makeAlong start rest = (made, true))
      (hbelow : earlier.node? below = some .directory) :
      left.node? below = some .directory := by
    have hchanges := changes_makeAlong earlier start rest
    rw [hmade] at hchanges
    exact (hsame.directory_iff below).2
      (hchanges.keeps.node below .directory (Or.inl rfl) hbelow)
  fun_induction makeAlong tree place names with
  | case1 tree place => rfl
  | case2 tree place name rest hstay ih =>
    rw [makeAlong, if_pos hstay]
    exact ih h
  | case3 tree place rest hstay ih =>
    rw [makeAlong, if_neg hstay, if_pos rfl]
    exact ih h
  | case4 tree place name rest hstay hup hsize => cases h
  | case5 tree place name rest hstay hup hsize below hnode ih =>
    have hthere : left.node? (place.child name) = some .directory := hstays h hnode
    rw [makeAlong, if_neg hstay, if_neg hup, if_neg hsize]
    simp only [hthere]
    exact ih h
  | case6 tree place name rest hstay hup hsize below octets hnode => cases h
  | case7 tree place name rest hstay hup hsize below hnone hdot => cases h
  | case8 tree place name rest hstay hup hsize below hnone hdot ih =>
    have hput : (tree.put below .directory).node? below = some .directory := by
      rw [node?_put tree (ne_root_of_node?_eq_none hnone), if_pos rfl]
    have hthere : left.node? (place.child name) = some .directory := hstays h hput
    rw [makeAlong, if_neg hstay, if_neg hup, if_neg hsize]
    simp only [hthere]
    exact ih h

theorem makeDirectories_of_sameDirectories {path : String}
    (h : tree.makeDirectories path = (made, true)) (hsame : SameDirectories made left) :
    left.makeDirectories path = (left, true) := by
  have hmade := (changes_makeDirectories tree path).workingDirectory
  rw [h] at hmade
  have horigin : left.origin path = tree.origin path := by
    rw [origin, origin, hsame.workingDirectory, hmade]
  rw [makeDirectories] at h ⊢
  split
  · rw [if_pos ‹_›] at h
    cases h
  · rw [if_neg ‹_›] at h
    rw [horigin]
    exact makeAlong_of_sameDirectories h hsame

/-! ### Names of temporary files -/

theorem toNat_of_mem_temporaryName {number : Nat} {c : Char}
    (h : c ∈ (temporaryName number).toList) : 0 < c.toNat ∧ c.toNat ≤ 0x7F := by
  rw [toList_temporaryName, List.mem_append] at h
  rcases h with h | h
  · have hstart : ".tmp".toList.all fun c => 0 < c.toNat ∧ c.toNat ≤ 0x7F := by decide
    exact of_decide_eq_true (List.all_eq_true.1 hstart c h)
  · have hdigit := Text.isDigit_iff.1 (Text.allDigits_padded 6 number c h)
    omega

theorem nameSize_eq_utf8Len (name : List Char) : nameSize name = String.utf8Len name := by
  have hfold (name : List Char) (size : Nat) :
      (name.map Char.utf8Size).foldl Nat.add size = size + String.utf8Len name := by
    induction name generalizing size with
    | nil => rfl
    | cons c name ih =>
      have hadd : Nat.add size c.utf8Size = size + c.utf8Size := rfl
      rw [List.map_cons, List.foldl_cons, ih, String.utf8Len_cons, hadd]
      omega
  rw [nameSize, hfold, Nat.zero_add]

/-- The name of a temporary file has an octet for each character. -/
theorem utf8Len_temporaryName (number : Nat) :
    String.utf8Len (temporaryName number).toList = (temporaryName number).toList.length := by
  have hlength (name : List Char) (h : ∀ c ∈ name, c.utf8Size = 1) :
      String.utf8Len name = name.length := by
    induction name with
    | nil => rfl
    | cons c name ih =>
      rw [List.forall_mem_cons] at h
      rw [String.utf8Len_cons, List.length_cons, ih h.2, h.1]
  apply hlength
  intro c hc
  exact Char.utf8Size_eq_one_iff.2 (UInt32.le_iff_toNat_le.2 (toNat_of_mem_temporaryName hc).2)

theorem length_temporaryName_mono {a b : Nat} (h : a ≤ b) :
    (temporaryName a).toList.length ≤ (temporaryName b).toList.length := by
  have hpadded := Text.length_padded_mono 6 h
  rw [toList_temporaryName, toList_temporaryName, List.length_append, List.length_append]
  omega

theorem isPlain_temporaryName (number : Nat) : IsPlain (temporaryName number).toList := by
  have hslash := Text.slash_not_mem_of_allDigits (Text.allDigits_padded 6 number)
  rw [toList_temporaryName]
  refine ⟨?_, ?_, ?_, ?_⟩
  · exact List.cons_ne_nil _ _
  · intro h
    cases h
  · intro h
    cases h
  · rw [List.mem_append, not_or]
    exact ⟨by decide, hslash⟩

theorem temporaryName_injective {a b : Nat}
    (h : (temporaryName a).toList = (temporaryName b).toList) : a = b := by
  rw [toList_temporaryName, toList_temporaryName] at h
  have hnumber := congrArg Text.ofDigits (List.append_cancel_left h)
  rwa [Text.ofDigits_padded, Text.ofDigits_padded] at hnumber

/-- Where a temporary file can lie in a directory, those of lesser numbers can. -/
theorem locate_temporaryName {directory : String} {number : Nat} {target : Location}
    (h : tree.locate (directory ++ "/" ++ temporaryName number) = .ok target) :
    ∃ place : Location, ∀ lesser ≤ number,
      tree.locate (directory ++ "/" ++ temporaryName lesser) =
        .ok (place.child (temporaryName lesser).toList) := by
  obtain ⟨hfit, place, hfollow, hnode, hsize, -⟩ :=
    (locate_below_iff (isPlain_temporaryName number)).1 h
  refine ⟨place, fun lesser hlesser => ?_⟩
  have hlength := length_temporaryName_mono hlesser
  apply (locate_below_iff (isPlain_temporaryName lesser)).2
  refine ⟨?_, place, hfollow, hnode, ?_, rfl⟩
  · have hbytes (number : Nat) : (temporaryName number).utf8ByteSize =
        (temporaryName number).toList.length := by
      rw [← utf8Len_temporaryName, ← String.utf8ByteSize_ofList, String.ofList_toList]
    have hnul : Char.ofNat 0 ∉ (temporaryName lesser).toList := by
      intro hmem
      exact absurd (toNat_of_mem_temporaryName hmem).1 (by decide)
    simp only [isUnfit, String.utf8ByteSize_append, String.toList_append, Bool.or_eq_false_iff,
      decide_eq_false_iff_not, hbytes, List.contains_eq_mem, List.mem_append, not_or] at hfit ⊢
    exact ⟨by omega, hfit.2.1, hnul⟩
  · rw [nameSize_eq_utf8Len, utf8Len_temporaryName] at hsize ⊢
    omega

/-! ### Free names -/

/-- Numbers in a row whose names are all taken are no more than there are files. -/
theorem le_length_nodes {place : Location} {count : Nat}
    (h : ∀ number < count, tree.node? (place.child (temporaryName number).toList) ≠ none) :
    count ≤ tree.nodes.length := by
  let entry (number : Nat) : Location := place.child (temporaryName number).toList
  have hnodup : ((List.range count).map entry).Nodup := by
    apply List.Nodup.map
    · intro a b hab
      have hnames := congrArg Location.names hab
      exact temporaryName_injective (List.cons.inj hnames).1
    · exact List.nodup_range
  have hsub : (List.range count).map entry ⊆ tree.nodes.map Prod.fst := by
    intro other hother
    obtain ⟨number, hnumber, rfl⟩ := List.mem_map.1 hother
    have htaken := Option.isSome_iff_ne_none.2 (h number (List.mem_range.1 hnumber))
    rw [node?, if_neg, List.lookup_isSome_iff] at htaken
    · obtain ⟨member, hmember, hkey⟩ := htaken
      exact List.mem_map.2 ⟨member, hmember, (eq_of_beq hkey).symm⟩
    · intro hroot
      cases congrArg Location.names hroot
  have hlength := (hnodup.subperm hsub).length_le
  rwa [List.length_map, List.length_map, List.length_range] at hlength

/-- The place under the first free name is found, for no name before it is free. -/
theorem temporary?_of_first {directory text : String} {place : Location} {number : Nat}
    (hjoin : ∀ number, Path.join (tree.fromRoot directory) (temporaryName number) =
      text ++ "/" ++ temporaryName number)
    (hplaces : ∀ lesser ≤ number, tree.locate (text ++ "/" ++ temporaryName lesser) =
      .ok (place.child (temporaryName lesser).toList))
    (hfree : tree.node? (place.child (temporaryName number).toList) = none)
    (htaken : ∀ lesser < number,
      tree.node? (place.child (temporaryName lesser).toList) ≠ none) :
    tree.temporary? directory = some (place.child (temporaryName number).toList) := by
  have hlength : number + 1 ≤ tree.nodes.length + 1 := Nat.succ_le_succ (le_length_nodes htaken)
  obtain ⟨more, hmore⟩ := Nat.exists_eq_add_of_le hlength
  rw [temporary?, hmore, List.range_add, List.range_succ, List.findSome?_append,
    List.findSome?_append, List.findSome?_eq_none_iff.2]
  · simp [hjoin, hplaces number (Nat.le_refl _), hfree]
  · intro lesser hlesser
    have hlt := List.mem_range.1 hlesser
    simp [hjoin, hplaces lesser (Nat.le_of_lt hlt), htaken lesser hlt]

/-- The same free name is found again where the directories are the same and nothing has
    changed under the names of temporary files. -/
theorem temporary?_of_same {directory text : String} {source : Location}
    (hsame : SameDirectories tree left)
    (hnodes : ∀ place number, place.IsNamed (temporaryName number) →
      left.node? place = tree.node? place)
    (hjoin : ∀ number, Path.join (tree.fromRoot directory) (temporaryName number) =
      text ++ "/" ++ temporaryName number)
    (h : tree.temporary? directory = some source) : left.temporary? directory = some source := by
  have hroot : left.fromRoot directory = tree.fromRoot directory := by
    rw [fromRoot, fromRoot, workingPath, workingPath, hsame.workingDirectory]
  obtain ⟨number, target, htarget, hfree⟩ :
      ∃ number target, tree.locate (text ++ "/" ++ temporaryName number) = .ok target ∧
        tree.node? target = none := by
    obtain ⟨number, -, hfound⟩ := List.exists_of_findSome?_eq_some h
    rw [hjoin] at hfound
    split at hfound
    · rename_i target htarget
      split at hfound
      · rename_i hnone
        exact ⟨number, target, htarget, Option.isNone_iff_eq_none.1 hnone⟩
      · cases hfound
    · cases hfound
  obtain ⟨place, hplaces⟩ := locate_temporaryName htarget
  rw [hplaces number (Nat.le_refl _)] at htarget
  obtain rfl := Except.ok.inj htarget
  -- the first free number is the same in both trees
  have hexists : ∃ number, tree.node? (place.child (temporaryName number).toList) = none :=
    ⟨number, hfree⟩
  have hentry (number : Nat) : left.node? (place.child (temporaryName number).toList) =
      tree.node? (place.child (temporaryName number).toList) := hnodes _ number rfl
  have hfirst : ∀ lesser ≤ Nat.find hexists,
      tree.locate (text ++ "/" ++ temporaryName lesser) =
        .ok (place.child (temporaryName lesser).toList) :=
    fun lesser hlesser => hplaces lesser (hlesser.trans (Nat.find_min' hexists hfree))
  have hfound := temporary?_of_first hjoin hfirst (Nat.find_spec hexists)
    fun lesser hlesser => Nat.find_min hexists hlesser
  obtain rfl := Option.some.inj (h.symm.trans hfound)
  rw [← hroot] at hjoin
  apply temporary?_of_first hjoin
  · exact fun lesser hlesser => hsame.locate (hfirst lesser hlesser)
  · rw [hentry]
    exact Nat.find_spec hexists
  · intro lesser hlesser
    rw [hentry]
    exact Nat.find_min hexists hlesser

end FileTree

/-! ### The directory of the state file -/

namespace Layout

@[simp] theorem parent?_stateFile (layout : Layout) :
    Path.parent? layout.stateFile = some layout.logDirectory := by
  rw [stateFile_eq]
  exact layout.parent?_below isPlain_state

theorem join_temporaryName (layout : Layout) (tree : FileTree) (number : Nat) :
    Path.join (tree.fromRoot layout.logDirectory) (FileTree.temporaryName number) =
      tree.fromRoot layout.logDirectory ++ "/" ++ FileTree.temporaryName number := by
  have hlast : (tree.fromRoot layout.logDirectory).toList.getLast? = some 't' :=
    Path.getLast?_join _ layout.getLast?_logDirectory
  apply Path.join_name (FileTree.isPlain_temporaryName number).no_slash
  · intro hempty
    rw [hempty] at hlast
    cases hlast
  · rw [hlast]
    decide

end Layout

/-! ### Replacing after a snapshot -/

namespace StateFile

open FileTree

variable {tree left : FileTree} {layout : Layout}

/-- The state file can still be replaced where its directory has been made and nothing has
    changed of the directories and under the names of temporary files. -/
theorem Replaceable.of_sameDirectories (h : Replaceable tree layout.stateFile)
    (hsame : SameDirectories (tree.makeDirectories layout.logDirectory).1 left)
    (hnodes : ∀ place number, place.IsNamed (temporaryName number) →
      left.node? place = (tree.makeDirectories layout.logDirectory).1.node? place) :
    Replaceable left layout.stateFile := by
  intro text
  obtain ⟨parent, made, source, hparent, hmake, hsource, haccepts, hmoved⟩ :=
    replace_eq_ok_iff.1 (Prod.ext rfl (h text))
  obtain rfl := Option.some.inj (layout.parent?_stateFile.symm.trans hparent)
  rw [hmake] at hsame hnodes
  have hmade := makeDirectories_of_sameDirectories hmake hsame
  have hsource' := temporary?_of_same hsame hnodes (layout.join_temporaryName made) hsource
  obtain ⟨moved, hmoved'⟩ := exists_moveTo_of_moveTo hsame (node?_of_temporary? hsource)
    (node?_of_temporary? hsource') hmoved
  have hreplace : replace left layout.stateFile text = (moved, .ok ()) :=
    replace_eq_ok_iff.2
      ⟨_, left, source, hparent, hmade, hsource', hsame.accepts haccepts, hmoved'⟩
  exact congrArg Prod.snd hreplace

/-- Whatever became of a snapshot, the state file can be replaced after it. -/
theorem Replaceable.writeDocument (h : Replaceable tree layout.stateFile) (s : Session)
    (text : List Char) :
    Replaceable (Snapshot.writeDocument tree layout (Snapshot.path layout s) text).1
      layout.stateFile := by
  have hchanges := Snapshot.changesAt_writeDocument tree layout (Snapshot.path layout s) text
  apply h.of_sameDirectories (Changes.sameDirectories hchanges)
  intro place number hname
  rcases hchanges.node place with hsame | ⟨hmade, -, -⟩ | ⟨⟨path, hpath, hlocate⟩, -, -⟩
  · exact hsame
  · exact hmade.elim
  · simp only [List.mem_cons, List.not_mem_nil, or_false] at hpath
    rcases hpath with rfl | rfl
    · have hother := hname.unique (Layout.isNamed_schemaFile hlocate)
      exact absurd hother (temporaryName_ne number (by decide))
    · have hother := hname.unique (Snapshot.isNamed_path hlocate)
      exact absurd hother (Snapshot.temporaryName_ne_name number s)

end StateFile

end SessionLog
