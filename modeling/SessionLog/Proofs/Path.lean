/-
  SessionLog/Proofs/Path.lean
  ===========================
  **The base name of a path, and the paths that share it.**

  A base name is the last name of a path: a plain one, or none at all. Slashes and dot parts
  that name nothing and the directories in front do not count for it, and nothing else is
  left out: two paths with the same base name are written differently in these alone. So a
  file that tools have modified under several spellings is noted once.
-/
import Mathlib.Logic.Relation
import SessionLog.Proofs.Session.Uses
import SessionLog.Proofs.Snapshot.Naming

namespace SessionLog

open FileTree (IsPlain)

namespace Path

/-! ### Names at the end of a path -/

theorem baseName_eq_of_getLast?_names {path other : String}
    (h : (names other.toList).getLast? = (names path.toList).getLast?) :
    baseName other = baseName path := by
  rw [baseName, baseName, baseName?, baseName?, h]

theorem baseName_of_getLast?_names {path name : String} (hname : IsPlain name.toList)
    (h : (names path.toList).getLast? = some name.toList) : baseName path = name := by
  rw [baseName, baseName?, h]
  simp [hname.ne_dots]

theorem baseName_of_isPlain {name : String} (hname : IsPlain name.toList) :
    baseName name = name := by
  apply baseName_of_getLast?_names hname
  rw [names_of_isPlain hname]
  rfl

theorem baseName_below (directory : String) {name : String} (hname : IsPlain name.toList) :
    baseName (directory ++ "/" ++ name) = name := by
  apply baseName_of_getLast?_names hname
  rw [names_below directory hname, List.getLast?_concat]

/-- A base name that is not empty is the last name of its path. -/
theorem getLast?_names_of_baseName {path : String} (h : baseName path ≠ "") :
    (names path.toList).getLast? = some (baseName path).toList := by
  rw [baseName] at h ⊢
  split at h
  · exact absurd rfl h
  · rename_i name hname
    rw [baseName?] at hname
    split at hname
    · cases hname
    · rename_i last hlast
      split at hname
      · cases hname
      · rw [String.toList_ofList, hlast, ← hname]

theorem baseName_eq_empty_or_isPlain (path : String) :
    baseName path = "" ∨ IsPlain (baseName path).toList := by
  by_cases h : baseName path = ""
  · exact Or.inl h
  · exact Or.inr (isPlain_baseName h)

/-! ### Parts that name nothing -/

@[simp] theorem names_trailing_slash (path : String) :
    names (path ++ "/").toList = names path.toList := by
  have hnames := names_slash path ""
  rw [String.append_empty] at hnames
  rw [hnames]
  exact List.append_nil _

@[simp] theorem names_trailing_dot (path : String) :
    names (path ++ "/.").toList = names path.toList := by
  have htext : path ++ "/." = path ++ "/" ++ "." := by simp [← String.toList_inj]
  rw [htext, names_slash]
  exact List.append_nil _

@[simp] theorem baseName_trailing_dots (path : String) : baseName (path ++ "/..") = "" := by
  have htext : path ++ "/.." = path ++ "/" ++ ".." := by simp [← String.toList_inj]
  have hdots : names "..".toList = [['.', '.']] := by decide
  rw [baseName, baseName?, htext, names_slash, hdots, List.getLast?_concat]
  rfl

/-- Without slashes there is one name, or none. -/
theorem names_of_not_mem {piece : String} (h : '/' ∉ piece.toList) :
    ((piece = "" ∨ piece = ".") ∧ names piece.toList = []) ∨
      names piece.toList = [piece.toList] := by
  by_cases hvoid : piece = "" ∨ piece = "."
  · left
    refine ⟨hvoid, ?_⟩
    rcases hvoid with rfl | rfl <;> rfl
  · right
    have hnil : piece.toList ≠ [] := by
      intro hnil
      exact hvoid (Or.inl (String.toList_inj.1 hnil))
    have hdot : piece.toList ≠ ['.'] := by
      intro hdot
      exact hvoid (Or.inr (String.toList_inj.1 hdot))
    rw [names, Text.split_of_not_mem h]
    simp [hnil, hdot]

/-! ### Spellings -/

/-- A path and another spelling of it: with a slash doubled, with a dot part put in, with a
    slash behind it, or with a directory in front of a name. -/
inductive Respells : String → String → Prop where
  | slash (front back : String) : Respells (front ++ "/" ++ back) (front ++ "//" ++ back)
  | dot (front back : String) : Respells (front ++ "/" ++ back) (front ++ "/./" ++ back)
  | trailing (path : String) : Respells path (path ++ "/")
  | below (directory : String) {name : String} (hname : IsPlain name.toList) :
      Respells name (directory ++ "/" ++ name)

theorem Respells.baseName_eq {path other : String} (h : Respells path other) :
    baseName other = baseName path := by
  cases h with
  | slash front back =>
    have htext : front ++ "//" ++ back = (front ++ "/") ++ "/" ++ back := by
      simp [← String.toList_inj]
    apply baseName_eq_of_getLast?_names
    rw [htext, names_slash, names_slash, names_trailing_slash]
  | dot front back =>
    have htext : front ++ "/./" ++ back = (front ++ "/.") ++ "/" ++ back := by
      simp [← String.toList_inj]
    apply baseName_eq_of_getLast?_names
    rw [htext, names_slash, names_slash, names_trailing_dot]
  | trailing =>
    apply baseName_eq_of_getLast?_names
    rw [names_trailing_slash]
  | below directory hname => rw [baseName_below directory hname, baseName_of_isPlain hname]

theorem baseName_eq_of_eqvGen {path other : String} (h : Relation.EqvGen Respells path other) :
    baseName other = baseName path := by
  induction h with
  | rel _ _ h => exact h.baseName_eq
  | refl => rfl
  | symm _ _ _ ih => exact ih.symm
  | trans _ _ _ _ _ ih ih' => exact ih'.trans ih

theorem exists_last_slash {path : String} (h : '/' ∈ path.toList) :
    ∃ front back : String, path = front ++ "/" ++ back ∧ '/' ∉ back.toList := by
  obtain ⟨back, front, hreverse, hback⟩ := List.eq_append_cons_of_mem (List.mem_reverse.2 h)
  have hpath : path.toList = front.reverse ++ '/' :: back.reverse := by
    rw [← List.reverse_inj, hreverse]
    simp
  refine ⟨String.ofList front.reverse, String.ofList back.reverse, ?_, ?_⟩
  · rw [← String.toList_inj, hpath]
    simp
  · simpa using hback

/-- A dot part behind a path is one between two slashes, with the last slash taken away. -/
theorem eqvGen_trailing_dot (path : String) : Relation.EqvGen Respells path (path ++ "/.") := by
  have htext : path ++ "/./" ++ "" = path ++ "/." ++ "/" := by
    simp [← String.toList_inj]
  have hdot := Respells.dot path ""
  rw [htext, String.append_empty] at hdot
  exact .trans _ _ _ (.rel _ _ (.trailing path)) <|
    .trans _ _ _ (.rel _ _ hdot) (.symm _ _ (.rel _ _ (.trailing _)))

/-- What names nothing behind a slash makes another spelling of what is in front. -/
theorem eqvGen_append_void (front : String) {back : String} (hvoid : back = "" ∨ back = ".") :
    Relation.EqvGen Respells front (front ++ "/" ++ back) := by
  rcases hvoid with rfl | rfl
  · rw [String.append_empty]
    exact .rel _ _ (.trailing front)
  · have htext : front ++ "/" ++ "." = front ++ "/." := by simp [← String.toList_inj]
    rw [htext]
    exact eqvGen_trailing_dot front

/-- A path is a spelling of its last name. The induction is on the length of the path, which
    is cut at its last slash. -/
theorem eqvGen_of_getLast?_names {name : String} (hname : IsPlain name.toList) (path : String)
    (h : (names path.toList).getLast? = some name.toList) :
    Relation.EqvGen Respells path name := by
  induction hlength : path.toList.length using Nat.strong_induction_on generalizing path with
  | _ n ih =>
    by_cases hslash : '/' ∈ path.toList
    · obtain ⟨front, back, rfl, hback⟩ := exists_last_slash hslash
      have hshorter : front.toList.length < n := by
        rw [← hlength]
        simp
      rw [names_slash] at h
      rcases names_of_not_mem hback with ⟨hvoid, hnone⟩ | hlast
      · rw [hnone, List.append_nil] at h
        exact .trans _ _ _ (.symm _ _ (eqvGen_append_void front hvoid)) (ih _ hshorter front h rfl)
      · rw [hlast, List.getLast?_concat, Option.some_inj, String.toList_inj] at h
        subst h
        exact .symm _ _ (.rel _ _ (.below front hname))
    · rcases names_of_not_mem hslash with ⟨-, hnone⟩ | hlast
      · rw [hnone] at h
        cases h
      · rw [hlast, List.getLast?_singleton, Option.some_inj, String.toList_inj] at h
        rw [h]
        exact .refl _

/-- Paths with one base name are spellings of it, so of each other. -/
theorem eqvGen_of_baseName_eq {path other : String} (hne : baseName path ≠ "")
    (h : baseName other = baseName path) : Relation.EqvGen Respells path other := by
  have hplain := isPlain_baseName hne
  have hpath := eqvGen_of_getLast?_names hplain path (getLast?_names_of_baseName hne)
  have hlast := getLast?_names_of_baseName (h ▸ hne)
  rw [h] at hlast
  exact .trans _ _ _ hpath (.symm _ _ (eqvGen_of_getLast?_names hplain other hlast))

end Path

/-! ### Files under several spellings -/

namespace Session

theorem withName_of_mem {names : List String} {name : String} (h : name ∈ names) :
    withName names name = names := if_pos (Or.inr h)

theorem mem_withName {name : String} (hne : name ≠ "") (names : List String) :
    name ∈ withName names name := by
  rw [withName]
  split
  · rename_i hold
    exact hold.resolve_left hne
  · simp

end Session

/-- The path that a tool was used on. -/
def ToolUse.path (u : ToolUse) : String := textUnder "file_path" u.input

namespace Session

/-- A session after the use of a tool. -/
def withUse (s : Session) (u : ToolUse) (time : DateTime) : Session :=
  s.useTool u.tool u.input u.response time

variable {u v : ToolUse}

theorem filesModified_withUse (hedits : u.tool ∈ ToolUse.editingTools) (s : Session)
    (time : DateTime) :
    (s.withUse u time).filesModified = withName s.filesModified (Path.baseName u.path) := by
  rw [withUse, filesModified_useTool]
  exact if_pos ((ToolUse.modifiesFiles_iff u.tool).2 hedits)

/-- A session that holds what an editing tool has noted notes no other spelling of it. -/
theorem filesModified_withUse_again (hu : u.tool ∈ ToolUse.editingTools)
    (hv : v.tool ∈ ToolUse.editingTools) (hname : Path.baseName v.path = Path.baseName u.path)
    {s t : Session} {time : DateTime} (hkept : (s.withUse u time).filesModified ⊆ t.filesModified)
    (later : DateTime) : (t.withUse v later).filesModified = t.filesModified := by
  rw [filesModified_withUse hu] at hkept
  rw [filesModified_withUse hv, hname]
  by_cases hne : Path.baseName u.path = ""
  · exact if_pos (Or.inl hne)
  · exact withName_of_mem (hkept (mem_withName hne _))

end Session

/-- A base name has no slash, is neither a dot nor two of them, and is its own base name. A
    slash or a dot part behind a path does not change it, and two dots leave none. A plain name
    in a directory is the base name, whatever the directory. Spellings of one path have one
    base name, and two paths with one base name are spellings of one path, unless it is empty.
    So editing tools note the same name for two spellings, and nothing for the second one as
    long as the name is kept. -/
theorem base_name_is_proper :
    (∀ path, '/' ∉ (Path.baseName path).toList ∧ Path.baseName path ≠ "." ∧
        Path.baseName path ≠ ".." ∧ Path.baseName (Path.baseName path) = Path.baseName path) ∧
      (∀ path, Path.baseName (path ++ "/") = Path.baseName path ∧
        Path.baseName (path ++ "/.") = Path.baseName path ∧
        Path.baseName (path ++ "/..") = "") ∧
      (∀ directory name, IsPlain name.toList → Path.baseName (directory ++ "/" ++ name) = name) ∧
      (∀ path other, Relation.EqvGen Path.Respells path other →
        Path.baseName other = Path.baseName path) ∧
      (∀ path other, Path.baseName path ≠ "" → Path.baseName other = Path.baseName path →
        Relation.EqvGen Path.Respells path other) ∧
      ∀ u v : ToolUse, u.tool ∈ ToolUse.editingTools → v.tool ∈ ToolUse.editingTools →
        Relation.EqvGen Path.Respells u.path v.path → ∀ (s t : Session) (time later : DateTime),
          (s.withUse v later).filesModified = (s.withUse u time).filesModified ∧
            ((s.withUse u time).filesModified ⊆ t.filesModified →
              (t.withUse v later).filesModified = t.filesModified) := by
  refine ⟨?_, ?_, ?_, ?_, ?_, ?_⟩
  · intro path
    rcases Path.baseName_eq_empty_or_isPlain path with hempty | hplain
    · rw [hempty]
      decide
    · refine ⟨hplain.no_slash, ?_, ?_, Path.baseName_of_isPlain hplain⟩
      · intro hdot
        exact hplain.ne_dot (congrArg String.toList hdot)
      · intro hdots
        exact hplain.ne_dots (congrArg String.toList hdots)
  · intro path
    refine ⟨?_, ?_, Path.baseName_trailing_dots path⟩
    · exact (Path.Respells.trailing path).baseName_eq
    · exact Path.baseName_eq_of_eqvGen (Path.eqvGen_trailing_dot path)
  · intro directory name hname
    exact Path.baseName_below directory hname
  · intro path other hspelled
    exact Path.baseName_eq_of_eqvGen hspelled
  · intro path other hne hsame
    exact Path.eqvGen_of_baseName_eq hne hsame
  · intro u v hu hv hspelled s t time later
    have hname := Path.baseName_eq_of_eqvGen hspelled
    constructor
    · rw [Session.filesModified_withUse hu, Session.filesModified_withUse hv, hname]
    · intro hkept
      exact Session.filesModified_withUse_again hu hv hname hkept later

/-- A tool is used on a file below the working directory. -/
def relativeEdit : ToolUse := ⟨"Edit", .object [("file_path", .string "src/./main.rs")], none⟩

/-- Another one is used on the same file, by its absolute path and with slashes too many. -/
def absoluteEdit : ToolUse :=
  ⟨"Write", .object [("file_path", .string "/home/u//src/main.rs/")], none⟩

theorem base_name_is_proper_edits :
    Path.baseName ("src/." ++ "/" ++ "main.rs") = "main.rs" ∧
      Relation.EqvGen Path.Respells relativeEdit.path absoluteEdit.path ∧
      Path.baseName absoluteEdit.path = Path.baseName relativeEdit.path ∧
      ∃ s : Session, (s.withUse relativeEdit .epoch).filesModified = ["main.rs"] ∧
        (s.withUse absoluteEdit .epoch).filesModified = ["main.rs"] ∧
        ((s.withUse relativeEdit .epoch).withUse absoluteEdit .epoch).filesModified =
          ["main.rs"] := by
  obtain ⟨-, -, hbelow, hsame, hspelled, hnoted⟩ := base_name_is_proper
  have hplain : IsPlain "main.rs".toList := by refine ⟨?_, ?_, ?_, ?_⟩ <;> decide
  have hname : Path.baseName absoluteEdit.path = Path.baseName relativeEdit.path := by
    decide +kernel
  have hpaths := hspelled relativeEdit.path absoluteEdit.path (by decide +kernel) hname
  have hfirst : ((Session.fresh .epoch "" "" "" "").withUse relativeEdit .epoch).filesModified =
      ["main.rs"] := by decide +kernel
  obtain ⟨hsecond, hagain⟩ := hnoted relativeEdit absoluteEdit (by decide) (by decide) hpaths
    (.fresh .epoch "" "" "" "") ((Session.fresh .epoch "" "" "" "").withUse relativeEdit .epoch)
    .epoch .epoch
  exact ⟨hbelow _ _ hplain, hpaths, hsame _ _ hpaths, _, hfirst, hsecond.trans hfirst,
    (hagain (List.Subset.refl _)).trans hfirst⟩

end SessionLog
