/-
  SessionLog/Proofs/FileTree.lean
  ===============================
  **What an operation on files leaves as it was.**

  A path leads to the same place as long as the directories on its way stay. No operation
  that is used here takes a directory away, and each of them changes one file at most. So
  a file is read as before unless it is the one that was written, and the files of one
  directory are told apart by their names.
-/
import SessionLog.FileTree

namespace SessionLog

namespace Fault

/-- What finds room of a write is a front of it. -/
theorem taken_isPrefix (fault : Option Fault) (octets : List UInt8) :
    taken fault octets <+: octets := by
  rw [taken.eq_def]
  split
  · exact List.take_prefix _ _
  · exact List.prefix_rfl

theorem taken_of_ne_full {fault : Option Fault} (h : ∀ room, fault ≠ some (.full room))
    (octets : List UInt8) : taken fault octets = octets := by
  rw [taken.eq_def]
  split
  · rename_i room
    exact absurd rfl (h room)
  · rfl

theorem takesAll_iff {fault : Option Fault} {octets : List UInt8} :
    takesAll fault octets = true ↔ taken fault octets = octets := by
  rw [takesAll.eq_def, taken.eq_def]
  split
  · rw [decide_eq_true_iff]
    refine ⟨List.take_of_length_le, fun htaken => ?_⟩
    rw [← htaken]
    exact List.length_take_le _ _
  · simp

end Fault

namespace FileTree

/-- Nothing but the root, and nothing wrong with the disk. -/
def bare : FileTree := ⟨.root, [], []⟩

/-! ### Keeping what is there -/

/-- Directories stay, and so does what lies at the places of a kind. -/
structure Keeps (kept : Location → Prop) (tree left : FileTree) : Prop where
  workingDirectory : left.workingDirectory = tree.workingDirectory
  node : ∀ place node, node = .directory ∨ kept place → tree.node? place = some node →
    left.node? place = some node

variable {kept : Location → Prop} {tree left : FileTree}

@[simp] theorem node?_root (tree : FileTree) : tree.node? .root = some .directory := if_pos rfl

theorem ne_root_of_not_directory {place : Location} (h : tree.node? place ≠ some .directory) :
    place ≠ .root := by
  rintro rfl
  exact h tree.node?_root

theorem ne_root_of_node?_eq_none {place : Location} (h : tree.node? place = none) :
    place ≠ .root := by
  rintro rfl
  rw [node?_root] at h
  cases h

/-! ### Following paths -/

theorem Keeps.follow (h : Keeps kept tree left) {place target : Location}
    {names : List (List Char)} (hfollow : tree.follow place names = .ok target) :
    left.follow place names = .ok target := by
  induction names generalizing place with
  | nil => exact hfollow
  | cons name names ih =>
    rw [FileTree.follow] at hfollow ⊢
    cases hnode : tree.node? place with
    | none =>
      rw [hnode] at hfollow
      cases hfollow
    | some node =>
      cases node with
      | file octets =>
        rw [hnode] at hfollow
        cases hfollow
      | directory =>
        rw [h.node place .directory (Or.inl rfl) hnode]
        rw [hnode] at hfollow
        simp only at hfollow ⊢
        split
        · rw [if_pos ‹_›] at hfollow
          exact ih hfollow
        · rw [if_neg ‹_›] at hfollow
          split
          · rw [if_pos ‹_›] at hfollow
            exact ih hfollow
          · rw [if_neg ‹_›] at hfollow
            split
            · rw [if_pos ‹_›] at hfollow
              cases hfollow
            · rw [if_neg ‹_›] at hfollow
              exact ih hfollow

theorem Keeps.locate (h : Keeps kept tree left) {path : String} {target : Location}
    (hlocate : tree.locate path = .ok target) : left.locate path = .ok target := by
  have horigin : left.origin path = tree.origin path := by
    simp only [origin, h.workingDirectory]
  rw [FileTree.locate] at hlocate ⊢
  split
  · rw [if_pos ‹_›] at hlocate
    cases hlocate
  · rw [if_neg ‹_›] at hlocate
    split
    · rw [if_pos ‹_›] at hlocate
      cases hlocate
    · rw [if_neg ‹_›] at hlocate
      rw [horigin]
      exact h.follow hlocate

theorem read?_eq_some_iff {path : String} {octets : List UInt8} :
    tree.read? path = some octets ↔
      ∃ place, tree.locate path = .ok place ∧ tree.node? place = some (.file octets) := by
  rw [read?, lookup?]
  cases tree.locate path with
  | error refusal => simp
  | ok place =>
    simp only [Except.ok.injEq, exists_eq_left']
    cases tree.node? place with
    | none => simp
    | some node => cases node <;> simp

theorem Keeps.read? (h : Keeps kept tree left) {path : String} {octets : List UInt8}
    (hread : tree.read? path = some octets)
    (hkept : ∀ place, tree.locate path = .ok place → kept place) :
    left.read? path = some octets := by
  obtain ⟨place, hlocate, hnode⟩ := read?_eq_some_iff.1 hread
  exact read?_eq_some_iff.2
    ⟨place, h.locate hlocate, h.node place _ (Or.inr (hkept place hlocate)) hnode⟩

/-! ### What differs -/

/-- A tree after some work. At a place there is what was there before, or a directory that
    was made where nothing was, or a file that was written where no directory was. -/
structure Changes (made written : Location → Prop) (tree left : FileTree) : Prop where
  workingDirectory : left.workingDirectory = tree.workingDirectory
  faults : left.faults = tree.faults
  node : ∀ place, left.node? place = tree.node? place ∨
    (made place ∧ tree.node? place = none ∧ left.node? place = some .directory) ∨
    (written place ∧ tree.node? place ≠ some .directory ∧
      ∃ octets, left.node? place = some (.file octets))

namespace Changes

variable {made written : Location → Prop}

theorem refl (made written : Location → Prop) (tree : FileTree) :
    Changes made written tree tree where
  workingDirectory := rfl
  faults := rfl
  node _ := Or.inl rfl

theorem trans {middle : FileTree} (h : Changes made written tree middle)
    (h' : Changes made written middle left) : Changes made written tree left where
  workingDirectory := h'.workingDirectory.trans h.workingDirectory
  faults := h'.faults.trans h.faults
  node place := by
    rcases h'.node place with hsame | ⟨hmade, hnone, hnode⟩ | ⟨hwritten, hmiddle, hfile⟩
    · rw [hsame]
      exact h.node place
    · rcases h.node place with hsame | ⟨-, -, hdirectory⟩ | ⟨-, -, octets, hfile⟩
      · exact Or.inr (Or.inl ⟨hmade, hsame ▸ hnone, hnode⟩)
      · rw [hnone] at hdirectory
        cases hdirectory
      · rw [hnone] at hfile
        cases hfile
    · rcases h.node place with hsame | ⟨-, -, hdirectory⟩ | ⟨-, htree, -⟩
      · exact Or.inr (Or.inr ⟨hwritten, hsame ▸ hmiddle, hfile⟩)
      · exact absurd hdirectory hmiddle
      · exact Or.inr (Or.inr ⟨hwritten, htree, hfile⟩)

theorem mono {made' written' : Location → Prop} (h : Changes made written tree left)
    (hmade : ∀ place, made place → made' place)
    (hwritten : ∀ place, written place → written' place) :
    Changes made' written' tree left where
  workingDirectory := h.workingDirectory
  faults := h.faults
  node place := (h.node place).imp_right
    (Or.imp (And.imp_left (hmade place)) (And.imp_left (hwritten place)))

theorem keeps (h : Changes made written tree left) :
    Keeps (fun place => ¬written place) tree left where
  workingDirectory := h.workingDirectory
  node place node hkept hnode := by
    rcases h.node place with hsame | ⟨-, hnone, -⟩ | ⟨hwritten, hdirectory, -⟩
    · rw [hsame]
      exact hnode
    · rw [hnone] at hnode
      cases hnode
    · rcases hkept with rfl | hkept
      · exact absurd hnode hdirectory
      · exact absurd hwritten hkept

/-- Where none was written, no file comes, goes or changes. -/
theorem file_iff (h : Changes made written tree left) {place : Location}
    (hplace : ¬written place) {octets : List UInt8} :
    left.node? place = some (.file octets) ↔ tree.node? place = some (.file octets) := by
  rcases h.node place with hsame | ⟨-, hnone, hdirectory⟩ | ⟨hwritten, -, -⟩
  · rw [hsame]
  · rw [hnone, hdirectory]
    constructor <;> exact fun hfile => nomatch hfile
  · exact absurd hwritten hplace

end Changes

theorem changes_put_directory {place : Location} (hplace : tree.node? place = none) :
    Changes (fun _ => True) (fun _ => False) tree (tree.put place .directory) where
  workingDirectory := rfl
  faults := rfl
  node other := by
    rw [node?_put tree (ne_root_of_node?_eq_none hplace)]
    split
    · rename_i hother
      rw [hother]
      exact Or.inr (Or.inl ⟨trivial, hplace, rfl⟩)
    · exact Or.inl rfl

theorem changes_put_file {place : Location} (hplace : tree.node? place ≠ some .directory)
    (octets : List UInt8) :
    Changes (fun _ => False) (fun other => other = place) tree
      (tree.put place (.file octets)) where
  workingDirectory := rfl
  faults := rfl
  node other := by
    rw [node?_put tree (ne_root_of_not_directory hplace)]
    split
    · rename_i hother
      rw [hother]
      exact Or.inr (Or.inr ⟨rfl, hplace, octets, rfl⟩)
    · exact Or.inl rfl

/-! ### Operations -/

theorem changes_makeAlong (tree : FileTree) (place : Location) (names : List (List Char)) :
    Changes (fun _ => True) (fun _ => False) tree (tree.makeAlong place names).1 := by
  induction names generalizing tree place with
  | nil => exact .refl _ _ tree
  | cons name names ih =>
    rw [makeAlong]
    split
    · exact ih tree place
    · split
      · exact ih tree place.parent
      · split
        · exact .refl _ _ tree
        · simp only
          split
          · exact ih tree (place.child name)
          · exact .refl _ _ tree
          · rename_i hnone
            split
            · exact .refl _ _ tree
            · exact (changes_put_directory hnone).trans (ih _ _)

theorem changes_makeDirectories (tree : FileTree) (path : String) :
    Changes (fun _ => True) (fun _ => False) tree (tree.makeDirectories path).1 := by
  rw [makeDirectories]
  split
  · exact .refl _ _ tree
  · exact changes_makeAlong tree _ _

/-! ### Writing -/

/-- A write to a place puts a front of its octets there and tells whether that is all of them,
    or it does nothing and fails. -/
theorem fill_cases (tree : FileTree) (place : Location) (kept octets : List UInt8) :
    (∃ refusal, tree.fill place kept octets = (tree, .error refusal)) ∨
      tree.fill place kept octets = (tree.put place (.file (kept ++ tree.taken place octets)),
        if tree.takesAll place octets then .ok () else .error .refused) := by
  rw [fill]
  split
  · exact Or.inl ⟨.refused, rfl⟩
  · exact Or.inr rfl

theorem write_cases (tree : FileTree) (path : String) (octets : List UInt8) :
    (∃ refusal, tree.write path octets = (tree, .error refusal)) ∨
      ∃ place, tree.locate path = .ok place ∧ tree.node? place ≠ some .directory ∧
        tree.write path octets = (tree.put place (.file (tree.taken place octets)),
          if tree.takesAll place octets then .ok () else .error .refused) := by
  rw [write, update]
  cases hlocate : tree.locate path with
  | error refusal => exact Or.inl ⟨refusal, rfl⟩
  | ok place =>
    simp only
    split
    · exact Or.inl ⟨.refused, rfl⟩
    · rename_i before hnode
      exact (tree.fill_cases place [] octets).imp_right fun hfill => ⟨place, rfl, by simp [hnode],
        hfill⟩
    · rename_i hnode
      exact (tree.fill_cases place [] octets).imp_right fun hfill => ⟨place, rfl, by simp [hnode],
        hfill⟩

/-- A file that has been written to the end is read from its path. -/
theorem read?_of_write {path : String} {octets : List UInt8}
    (h : tree.write path octets = (left, .ok ())) : left.read? path = some octets := by
  rcases tree.write_cases path octets with ⟨refusal, herror⟩ | ⟨place, hlocate, hplace, hput⟩
  · rw [herror] at h
    cases h
  · rw [hput] at h
    obtain ⟨hleft, hok⟩ := Prod.mk.inj h
    split at hok
    · rename_i hall
      have hwhole : tree.taken place octets = octets := Fault.takesAll_iff.1 hall
      rw [hwhole] at hleft
      rw [← hleft]
      apply read?_eq_some_iff.2
      refine ⟨place, (changes_put_file hplace octets).keeps.locate hlocate, ?_⟩
      rw [node?_put tree (ne_root_of_not_directory hplace), if_pos rfl]
    · cases hok

/-- A place takes some octets: it can be opened, all of them find room, and they can be
    flushed. -/
structure Accepts (tree : FileTree) (place : Location) (octets : List UInt8) : Prop where
  opened : tree.fault? place ≠ some .closed
  whole : tree.taken place octets = octets
  flushed : tree.fault? place ≠ some .unflushed

/-- A place without a fault takes whatever is written. -/
theorem accepts_of_fault?_eq_none {place : Location} (h : tree.fault? place = none)
    (octets : List UInt8) : tree.Accepts place octets where
  opened := by simp [h]
  whole := Fault.taken_of_ne_full (by simp [h]) octets
  flushed := by simp [h]

/-! ### Temporary files -/

theorem node?_of_temporary? {directory : String} {place : Location}
    (h : tree.temporary? directory = some place) : tree.node? place = none := by
  rw [temporary?] at h
  obtain ⟨number, -, hnumber⟩ := List.exists_of_findSome?_eq_some h
  split at hnumber
  · split at hnumber
    · rename_i hnone
      cases hnumber
      exact Option.isNone_iff_eq_none.1 hnone
    · cases hnumber
  · cases hnumber

/-- A file that was made at an empty place and taken away again has changed nothing. -/
theorem changes_erase_put {place : Location} (hempty : tree.node? place = none)
    (octets : List UInt8) :
    Changes (fun _ => False) (fun _ => False) tree
      ((tree.put place (.file octets)).erase place) where
  workingDirectory := rfl
  faults := rfl
  node other := by
    have hplace := ne_root_of_node?_eq_none hempty
    left
    rw [node?_erase _ hplace, node?_put tree hplace]
    split
    · rename_i hother
      rw [hother, hempty]
    · rfl

/-- A file can be moved to a place that is neither closed nor a directory. -/
theorem moveTo_eq_ok_iff {source : Location} {octets : List UInt8} {path : String} :
    tree.moveTo source octets path = .ok left ↔
      ∃ place, tree.locate path = .ok place ∧ tree.fault? place ≠ some .closed ∧
        tree.node? place ≠ some .directory ∧
        left = (tree.erase source).put place (.file octets) := by
  rw [moveTo]
  cases tree.locate path with
  | error refusal => simp
  | ok place =>
    simp only [Except.ok.injEq, exists_eq_left']
    by_cases hclosed : tree.fault? place = some .closed
    · simp [hclosed]
    · rw [if_neg hclosed]
      cases tree.node? place with
      | none => simp [hclosed, eq_comm]
      | some node => cases node <;> simp [hclosed, eq_comm]

/-- What lies where after a move: the file at its new place, nothing at the old one, and
    all else as before. -/
theorem moveTo_nodes {source : Location} {octets : List UInt8} {path : String}
    (hsource : source ≠ .root) (h : tree.moveTo source octets path = .ok left) :
    ∃ place, tree.locate path = .ok place ∧ tree.node? place ≠ some .directory ∧
      left.workingDirectory = tree.workingDirectory ∧ left.faults = tree.faults ∧
      ∀ other, left.node? other =
        if other = place then some (.file octets)
        else if other = source then none else tree.node? other := by
  obtain ⟨place, hlocate, -, hplace, rfl⟩ := moveTo_eq_ok_iff.1 h
  refine ⟨place, hlocate, hplace, rfl, rfl, fun other => ?_⟩
  rw [node?_put _ (ne_root_of_not_directory hplace), node?_erase _ hsource]

/-! ### The same directories -/

/-- Two trees with the same directories and the same faults. A path leads to the same place
    in both. -/
structure SameDirectories (tree left : FileTree) : Prop where
  workingDirectory : left.workingDirectory = tree.workingDirectory
  faults : left.faults = tree.faults
  directory_iff : ∀ place,
    left.node? place = some .directory ↔ tree.node? place = some .directory

namespace SameDirectories

theorem refl (tree : FileTree) : SameDirectories tree tree := ⟨rfl, rfl, fun _ => Iff.rfl⟩

theorem symm (h : SameDirectories tree left) : SameDirectories left tree :=
  ⟨h.workingDirectory.symm, h.faults.symm, fun place => (h.directory_iff place).symm⟩

theorem trans {middle : FileTree} (h : SameDirectories tree middle)
    (h' : SameDirectories middle left) : SameDirectories tree left :=
  ⟨h'.workingDirectory.trans h.workingDirectory, h'.faults.trans h.faults,
    fun place => (h'.directory_iff place).trans (h.directory_iff place)⟩

theorem fault? (h : SameDirectories tree left) (place : Location) :
    left.fault? place = tree.fault? place := by rw [FileTree.fault?, FileTree.fault?, h.faults]

theorem accepts (h : SameDirectories tree left) {place : Location} {octets : List UInt8}
    (haccepts : tree.Accepts place octets) : left.Accepts place octets where
  opened := by
    rw [h.fault?]
    exact haccepts.opened
  whole := by
    rw [taken, h.fault?]
    exact haccepts.whole
  flushed := by
    rw [h.fault?]
    exact haccepts.flushed

theorem locate (h : SameDirectories tree left) {path : String} {target : Location}
    (hlocate : tree.locate path = .ok target) : left.locate path = .ok target := by
  have hkeeps : Keeps (fun _ => False) tree left := by
    refine ⟨h.workingDirectory, fun place node hkept hnode => ?_⟩
    obtain rfl : node = .directory := hkept.resolve_right id
    exact (h.directory_iff place).2 hnode
  exact hkeeps.locate hlocate

end SameDirectories

theorem Changes.sameDirectories {written : Location → Prop}
    (h : Changes (fun _ => False) written tree left) : SameDirectories tree left := by
  refine ⟨h.workingDirectory, h.faults, fun place => ?_⟩
  rcases h.node place with hsame | ⟨hmade, -, -⟩ | ⟨-, hdirectory, octets, hfile⟩
  · rw [hsame]
  · exact hmade.elim
  · rw [hfile]
    exact iff_of_false (fun hnode => nomatch hnode) hdirectory

/-- A file that was made at an empty place and then moved to a path is at that path, and
    nothing is different from what was there before it was made. -/
theorem moveTo_spec {source : Location} {octets : List UInt8} {path : String}
    (hempty : tree.node? source = none)
    (h : (tree.put source (.file octets)).moveTo source octets path = .ok left) :
    ∃ place, left.locate path = .ok place ∧ left.node? place = some (.file octets) ∧
      Changes (fun _ => False) (fun other => other = place) tree left := by
  have hsource := ne_root_of_node?_eq_none hempty
  have hmade := node?_put tree hsource (.file octets)
  have hnotDirectory : tree.node? source ≠ some .directory := by simp [hempty]
  have hput := changes_put_file hnotDirectory octets
  obtain ⟨place, hlocate, hplace, hworking, hfaults, hnodes⟩ := moveTo_nodes hsource h
  have hchanges : Changes (fun _ => False) (fun other => other = place) tree left := by
    refine ⟨hworking, hfaults, fun other => ?_⟩
    rw [hnodes]
    split
    · rename_i hother
      rw [hother]
      have hbefore : tree.node? place ≠ some .directory := fun hdirectory =>
        hplace ((hput.sameDirectories.directory_iff place).2 hdirectory)
      exact Or.inr (Or.inr ⟨rfl, hbefore, octets, rfl⟩)
    · left
      split
      · rename_i hother
        rw [hother, hempty]
      · rename_i hother
        rw [hmade, if_neg hother]
  have hsame := hput.sameDirectories.symm.trans hchanges.sameDirectories
  exact ⟨place, hsame.locate hlocate, by rw [hnodes, if_pos rfl], hchanges⟩

/-- Whether a file can be moved to a path is a matter of the directories and the faults alone,
    not of what is in the file or of where it was made. -/
theorem exists_moveTo_of_moveTo {moved : FileTree} {source source' : Location}
    {octets octets' : List UInt8} {path : String} (hsame : SameDirectories tree left)
    (hempty : tree.node? source = none) (hempty' : left.node? source' = none)
    (h : (tree.put source (.file octets)).moveTo source octets path = .ok moved) :
    ∃ moved', (left.put source' (.file octets')).moveTo source' octets' path = .ok moved' := by
  have hnotDirectory : tree.node? source ≠ some .directory := by simp [hempty]
  have hnotDirectory' : left.node? source' ≠ some .directory := by simp [hempty']
  have hput := changes_put_file hnotDirectory octets
  have hput' := changes_put_file hnotDirectory' octets'
  have hall := (hput.sameDirectories.symm.trans hsame).trans hput'.sameDirectories
  obtain ⟨place, hlocate, hopen, hplace, -⟩ := moveTo_eq_ok_iff.1 h
  have hopen' : (left.put source' (.file octets')).fault? place ≠ some .closed := by
    rwa [hall.fault? place]
  have hplace' : (left.put source' (.file octets')).node? place ≠ some .directory :=
    fun hdirectory => hplace ((hall.directory_iff place).1 hdirectory)
  exact ⟨_, moveTo_eq_ok_iff.2 ⟨place, hall.locate hlocate, hopen', hplace', rfl⟩⟩

/-! ### Files of one directory -/

/-- A name that is followed as such and goes neither nowhere nor up. -/
structure IsPlain (name : List Char) : Prop where
  ne_nil : name ≠ []
  ne_dot : name ≠ ['.']
  ne_dots : name ≠ ['.', '.']
  no_slash : '/' ∉ name

theorem follow_append (tree : FileTree) (place : Location) (names more : List (List Char)) :
    tree.follow place (names ++ more) =
      (tree.follow place names).bind fun middle => tree.follow middle more := by
  induction names generalizing place with
  | nil => rfl
  | cons name names ih =>
    rw [List.cons_append, follow, follow]
    cases tree.node? place with
    | none => rfl
    | some node =>
      cases node with
      | file octets => rfl
      | directory =>
        simp only
        split
        · exact ih place
        · split
          · exact ih place.parent
          · split
            · rfl
            · exact ih (place.child name)

theorem follow_plain_iff {place target : Location} {name : List Char} (hname : IsPlain name) :
    tree.follow place [name] = .ok target ↔
      tree.node? place = some .directory ∧ nameSize name ≤ maxName ∧
        target = place.child name := by
  rw [follow]
  cases tree.node? place with
  | none => simp
  | some node =>
    cases node with
    | file octets => simp
    | directory =>
      simp only [true_and]
      rw [if_neg (not_or.2 ⟨hname.ne_nil, hname.ne_dot⟩), if_neg hname.ne_dots]
      split
      · rename_i hlong
        constructor
        · intro h
          cases h
        · rintro ⟨hshort, -⟩
          omega
      · rename_i hshort
        rw [follow, Except.ok.injEq, eq_comm]
        exact (and_iff_right (Nat.le_of_not_lt hshort)).symm

/-- A path that ends in a plain name leads to that name in the directory in front of it. -/
theorem locate_below_iff {directory name : String} (hname : IsPlain name.toList)
    {target : Location} :
    tree.locate (directory ++ "/" ++ name) = .ok target ↔
      isUnfit (directory ++ "/" ++ name) = false ∧
        ∃ place, tree.follow (tree.origin (directory ++ "/"))
            (Text.split '/' directory.toList) = .ok place ∧
          tree.node? place = some .directory ∧ nameSize name.toList ≤ maxName ∧
            target = place.child name.toList := by
  have htext : (directory ++ "/" ++ name).toList = directory.toList ++ '/' :: name.toList := by
    simp only [String.toList_append, List.append_assoc]
    rfl
  have hne : directory ++ "/" ++ name ≠ "" := by
    intro hempty
    rw [hempty] at htext
    exact List.append_ne_nil_of_right_ne_nil _ (List.cons_ne_nil _ _) htext.symm
  have horigin : tree.origin (directory ++ "/" ++ name) = tree.origin (directory ++ "/") := by
    rw [origin, origin, htext, String.toList_append]
    cases directory.toList <;> rfl
  rw [locate, if_neg hne, horigin, htext, Text.split_append,
    Text.split_of_not_mem hname.no_slash, follow_append]
  cases isUnfit (directory ++ "/" ++ name) with
  | true => simp
  | false =>
    cases tree.follow (tree.origin (directory ++ "/")) (Text.split '/' directory.toList) with
    | error refusal => simp [Except.bind]
    | ok place => simp [Except.bind, follow_plain_iff hname]

/-- A path that ends in a plain name leads to that name in some place. -/
theorem locate_below {directory name : String} (hname : IsPlain name.toList) {target : Location}
    (h : tree.locate (directory ++ "/" ++ name) = .ok target) :
    ∃ place : Location, target = place.child name.toList := by
  obtain ⟨-, place, -, -, -, htarget⟩ := (locate_below_iff hname).1 h
  exact ⟨place, htarget⟩

end FileTree

end SessionLog
