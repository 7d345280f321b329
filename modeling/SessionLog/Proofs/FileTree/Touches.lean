/-
  SessionLog/Proofs/FileTree/Touches.lean
  =======================================
  **Work that touches the files at some paths.**

  Work on files is told by the paths that it may write. What one piece of work touches and
  what the next one touches is what both touch, for a path goes on leading where it led. A
  file is told from the others by the name under which it lies.
-/
import SessionLog.Proofs.FileTree

namespace SessionLog

/-! ### Names of places -/

namespace Location

/-- The place lies in its directory under the name. -/
def IsNamed (place : Location) (name : String) : Prop := place.names.head? = some name.toList

theorem IsNamed.unique {place : Location} {name other : String} (h : place.IsNamed name)
    (h' : place.IsNamed other) : name = other := by
  rw [IsNamed, h] at h'
  exact String.toList_inj.1 (Option.some.inj h')

end Location

namespace FileTree

variable {tree middle left : FileTree} {paths : List String}

theorem isNamed_of_locate {directory name : String} {place : Location}
    (hname : IsPlain name.toList) (h : tree.locate (directory ++ "/" ++ name) = .ok place) :
    place.IsNamed name := by
  obtain ⟨parent, rfl⟩ := locate_below hname h
  rfl

/-! ### The files at some paths -/

/-- There is the same file at the place, or there is none in both trees. -/
def SameFileAt (place : Location) (tree left : FileTree) : Prop :=
  ∀ octets, left.node? place = some (.file octets) ↔ tree.node? place = some (.file octets)

/-- Directories may have been made at the places of a kind, and a file written wherever one of
    the paths leads. All else is as it was. -/
def ChangesAt (made : Location → Prop) (paths : List String) (tree left : FileTree) : Prop :=
  Changes made (fun place => ∃ path ∈ paths, left.locate path = .ok place) tree left

/-- Directories may have been made anywhere, and files written at the paths. -/
abbrev Touches (paths : List String) (tree left : FileTree) : Prop :=
  ChangesAt (fun _ => True) paths tree left

namespace ChangesAt

variable {made : Location → Prop}

theorem refl (made : Location → Prop) (paths : List String) (tree : FileTree) :
    ChangesAt made paths tree tree :=
  Changes.refl _ _ tree

theorem keeps (h : ChangesAt made paths tree left) :
    Keeps (fun place => ¬∃ path ∈ paths, left.locate path = .ok place) tree left :=
  Changes.keeps h

theorem trans (h : ChangesAt made paths tree middle) (h' : ChangesAt made paths middle left) :
    ChangesAt made paths tree left := by
  have hstays : ∀ place, (∃ path ∈ paths, middle.locate path = .ok place) →
      ∃ path ∈ paths, left.locate path = .ok place := by
    rintro place ⟨path, hpath, hlocate⟩
    exact ⟨path, hpath, h'.keeps.locate hlocate⟩
  exact (Changes.mono h (fun _ => id) hstays).trans h'

theorem mono {more : List String} (h : ChangesAt made paths tree left) (hsub : paths ⊆ more) :
    ChangesAt made more tree left := by
  apply Changes.mono h (fun _ => id)
  rintro place ⟨path, hpath, hlocate⟩
  exact ⟨path, hsub hpath, hlocate⟩

theorem touches (h : ChangesAt made paths tree left) : Touches paths tree left :=
  Changes.mono h (fun _ _ => trivial) fun _ => id

theorem of_changes (h : Changes made (fun _ => False) tree left) :
    ChangesAt made paths tree left :=
  h.mono (fun _ => id) fun _ => False.elim

theorem of_written {path : String} {place : Location} (hlocate : left.locate path = .ok place)
    (h : Changes made (fun other => other = place) tree left) :
    ChangesAt made [path] tree left := by
  apply h.mono (fun _ => id)
  rintro _ rfl
  exact ⟨path, List.mem_cons_self, hlocate⟩

theorem sameFileAt {place : Location} (h : ChangesAt made paths tree left)
    (hplace : ∀ path ∈ paths, left.locate path ≠ .ok place) : SameFileAt place tree left := by
  intro octets
  apply Changes.file_iff h
  rintro ⟨path, hpath, hlocate⟩
  exact hplace path hpath hlocate

/-- A file is read as before if its path does not lead where one of the others leads. -/
theorem read? {path : String} {octets : List UInt8} (h : ChangesAt made paths tree left)
    (hother : ∀ own ∈ paths, ∀ place,
      left.locate path = .ok place → left.locate own ≠ .ok place)
    (hread : tree.read? path = some octets) : left.read? path = some octets := by
  apply h.keeps.read? hread
  rintro place hlocate ⟨own, hown, hsame⟩
  exact hother own hown place (h.keeps.locate hlocate) hsame

end ChangesAt

/-- A write changes the file at its path at most, whether or not it comes to its end. -/
theorem changesAt_write (tree : FileTree) (path : String) (octets : List UInt8) :
    ChangesAt (fun _ => False) [path] tree (tree.write path octets).1 := by
  rcases tree.write_cases path octets with ⟨refusal, herror⟩ | ⟨place, hlocate, hplace, hput⟩
  · rw [herror]
    exact .refl _ _ tree
  · have hchanges := changes_put_file hplace (tree.taken place octets)
    rw [hput]
    exact .of_written (hchanges.keeps.locate hlocate) hchanges

end FileTree

end SessionLog
