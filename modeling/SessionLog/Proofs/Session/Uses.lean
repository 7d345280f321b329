/-
  SessionLog/Proofs/Session/Uses.lean
  ===================================
  **Modified files and failures are those of the tools that were used.**

  A session names every file that an editing tool has modified since the session was opened,
  once and in the order in which the names first came up, and it counts the uses that have
  failed. Nothing else adds to either, and nothing takes from them.
-/
import SessionLog.Proofs.Layout
import SessionLog.Proofs.Session.History

namespace SessionLog

/-! ### Uses of recorded tools -/

structure ToolUse where
  tool : String
  input : Json
  response : Option Json

/-- The use of a recorded tool. -/
def Occurrence.use? (o : Occurrence) : Option ToolUse :=
  match o.payload.event? with
  | some (.postToolUse tool input response) =>
    if o.settings.records tool then some ⟨tool, input, response⟩ else none
  | _ => none

namespace ToolUse

def editingTools : List String := ["Edit", "MultiEdit", "Write"]

/-- The name of the file that an editing tool was used on. -/
def fileName? (u : ToolUse) : Option String :=
  if u.tool ∈ editingTools then some (Path.baseName (textUnder "file_path" u.input)) else none

def failed (u : ToolUse) : Bool := (ToolKind.ofName u.tool).isFailure u.response

theorem modifiesFiles_iff (tool : String) :
    (ToolKind.ofName tool).modifiesFiles = true ↔ tool ∈ editingTools := by
  rw [ToolKind.ofName.eq_def]
  split <;> simp_all [ToolKind.modifiesFiles, editingTools]

end ToolUse

theorem Occurrence.use?_eq_some_iff {o : Occurrence} {u : ToolUse} :
    o.use? = some u ↔
      o.payload.event? = some (.postToolUse u.tool u.input u.response) ∧
        o.settings.records u.tool = true := by
  constructor
  · intro h
    rw [use?] at h
    split at h
    · rename_i tool input response hevent
      obtain ⟨hrecords, hu⟩ := Option.ite_none_right_eq_some.1 h
      cases hu
      exact ⟨hevent, hrecords⟩
    · cases h
  · rintro ⟨hevent, hrecords⟩
    rw [use?, hevent]
    exact if_pos hrecords

theorem Occurrence.use?_of_isIdle {s : Session} {o : Occurrence} (h : o.isIdle (some s) = true) :
    o.use? = none := by
  rw [use?]
  split
  · rename_i tool input response hevent
    have hrecords : ¬o.settings.records tool = true := by simpa [isIdle, hevent] using h
    exact if_neg hrecords
  · rfl

/-- A tool that was used is recorded. -/
theorem Session.next_of_use? {o : Occurrence} {u : ToolUse} (h : o.use? = some u) (s : Session) :
    next (some s) o = some (s.useTool u.tool u.input u.response o.now.localTime) := by
  obtain ⟨hevent, hrecords⟩ := Occurrence.use?_eq_some_iff.1 h
  rw [next, Occurrence.transition, Transition.ofPayload, hevent]
  simp only [Transition.ofEvent, hrecords, if_true]
  rfl

/-! ### Names in first-seen order -/

namespace Session

theorem eraseDups_concat (names : List String) (name : String) :
    (names ++ [name]).eraseDups =
      if name ∈ names then names.eraseDups else names.eraseDups ++ [name] := by
  rw [List.eraseDups_append]
  by_cases h : name ∈ names
  · simp [List.removeAll, h]
  · simp [List.removeAll, h, List.eraseDups_cons]

theorem nodup_eraseDups (names : List String) : names.eraseDups.Nodup := by
  induction names using List.reverseRecOn with
  | nil => exact List.nodup_nil
  | append_singleton names name ih =>
    rw [eraseDups_concat]
    split
    · exact ih
    · rename_i hnew
      rw [List.nodup_append]
      refine ⟨ih, List.pairwise_singleton _ name, ?_⟩
      rintro first hfirst _ hname rfl
      rw [List.mem_singleton] at hname
      rw [List.mem_eraseDups, hname] at hfirst
      exact hnew hfirst

/-- Names that are noted one by one are kept once each, but for the empty one. -/
theorem foldl_withName (names : List String) :
    names.foldl withName [] = (names.filter fun name => name ≠ "").eraseDups := by
  induction names using List.reverseRecOn with
  | nil => rfl
  | append_singleton names name ih =>
    rw [List.foldl_append, ih, List.filter_append, List.foldl_cons, List.foldl_nil, withName]
    by_cases hempty : name = ""
    · simp [hempty]
    · have hkept : [name].filter (fun name => name ≠ "") = [name] := by simp [hempty]
      rw [hkept, eraseDups_concat]
      simp [hempty]

end Session

theorem Path.isPlain_baseName {path : String} (h : baseName path ≠ "") :
    FileTree.IsPlain (baseName path).toList := by
  rw [baseName] at h ⊢
  split at h
  · exact absurd rfl h
  · rename_i name hname
    rw [String.toList_ofList]
    exact isPlain_of_baseName? hname

theorem ToolUse.isPlain_of_fileName? {u : ToolUse} {name : String} (h : u.fileName? = some name)
    (hne : name ≠ "") : FileTree.IsPlain name.toList := by
  rw [fileName?] at h
  split at h
  · rw [← Option.some.inj h] at hne ⊢
    exact Path.isPlain_baseName hne
  · cases h

/-! ### What a session holds of its uses -/

namespace Session

/-- A step is the use of a recorded tool, or it leaves files and failures as they are. -/
theorem Step.use_cases {s t : Session} {o : Occurrence} (h : Step s o t) :
    (∃ u, o.use? = some u ∧ t = s.useTool u.tool u.input u.response o.now.localTime) ∨
    (o.use? = none ∧ t.filesModified = s.filesModified ∧ t.errorCount = s.errorCount) := by
  cases h with
  | idle hidle => exact Or.inr ⟨Occurrence.use?_of_isIdle hidle, rfl, rfl⟩
  | useTool tool input response hevent hrecords =>
    left
    exact ⟨⟨tool, input, response⟩, Occurrence.use?_eq_some_iff.2 ⟨hevent, hrecords⟩, rfl⟩
  | answer hevent =>
    right
    simp [Occurrence.use?, hevent]
  | prompt text hevent | announce tool input hevent | finish pending hevent
  | request tool input hevent =>
    right
    rw [Occurrence.use?, hevent]
    exact ⟨rfl, rfl, rfl⟩

/-- A session is opened without modified files. -/
theorem folds_filesModified : Folds filesModified [] fun names o =>
    (o.use?.bind ToolUse.fileName?).elim names (withName names) where
  opened _ _ _ := rfl
  step s o t hstep := by
    rcases hstep.use_cases with ⟨u, huse, rfl⟩ | ⟨huse, hfiles, -⟩
    · rw [huse, filesModified_useTool, Option.bind_some, ToolUse.fileName?]
      by_cases hedits : u.tool ∈ ToolUse.editingTools
      · simp [(ToolUse.modifiesFiles_iff u.tool).2 hedits, hedits]
      · simp [mt (ToolUse.modifiesFiles_iff u.tool).1 hedits, hedits]
    · rw [huse]
      exact hfiles

/-- A session is opened without failures. -/
theorem folds_errorCount : Folds errorCount 0 fun count o =>
    o.use?.elim count fun u => if u.failed then count + 1 else count where
  opened _ _ _ := rfl
  step s o t hstep := by
    rcases hstep.use_cases with ⟨u, huse, rfl⟩ | ⟨huse, -, herrors⟩
    · rw [huse, errorCount_useTool]
      rfl
    · rw [huse]
      exact herrors

theorem foldl_failed (uses : List ToolUse) :
    uses.foldl (fun count u => if u.failed then count + 1 else count) (0 : UInt64) =
      UInt64.ofNat (uses.countP ToolUse.failed) := by
  induction uses using List.reverseRecOn with
  | nil => rfl
  | append_singleton uses u ih =>
    rw [List.foldl_append, ih, List.countP_append, List.countP_singleton, UInt64.ofNat_add]
    cases hfailed : u.failed with
    | true => simp [hfailed]
    | false => simp [hfailed]

/-- The uses of recorded tools since the session was opened. -/
def uses (run : List Occurrence) : List ToolUse :=
  (sinceOpened (history none run)).filterMap Occurrence.use?

theorem filesModified_after {run : List Occurrence} {s : Session} (h : after none run = some s) :
    s.filesModified =
      (((uses run).filterMap ToolUse.fileName?).filter fun name => name ≠ "").eraseDups := by
  rw [folds_filesModified.after_filterMap h, uses, List.filterMap_filterMap, foldl_withName]

theorem errorCount_after {run : List Occurrence} {s : Session} (h : after none run = some s) :
    s.errorCount = UInt64.ofNat ((uses run).countP ToolUse.failed) := by
  rw [folds_errorCount.after_filterMap h, foldl_failed]
  rfl

end Session

/-- What a session that is open after a run holds of the uses of recorded tools since it was
    opened: the names of the files that editing tools were used on, each once and in the order
    in which they first came up, and the number of uses that have failed, as long as there is
    room for it. A name is never empty, nor a path or a step of one. -/
theorem files_and_failures_of_uses (run : List Occurrence) (s : Session)
    (hopen : Session.after none run = some s) :
    s.filesModified = (((Session.uses run).filterMap ToolUse.fileName?).filter
        fun name => name ≠ "").eraseDups ∧
      s.filesModified.Nodup ∧
      (∀ name ∈ s.filesModified,
        name ≠ "" ∧ '/' ∉ name.toList ∧ name ≠ "." ∧ name ≠ "..") ∧
      ((Session.uses run).countP ToolUse.failed < UInt64.size →
        s.errorCount.toNat = (Session.uses run).countP ToolUse.failed) := by
  have hfiles := Session.filesModified_after hopen
  refine ⟨hfiles, hfiles ▸ Session.nodup_eraseDups _, ?_, ?_⟩
  · intro name hname
    rw [hfiles, List.mem_eraseDups, List.mem_filter, List.mem_filterMap,
      decide_eq_true_iff] at hname
    obtain ⟨⟨u, -, hu⟩, hne⟩ := hname
    have hplain := ToolUse.isPlain_of_fileName? hu hne
    refine ⟨hne, hplain.no_slash, ?_, ?_⟩
    · rintro rfl
      exact hplain.ne_dot rfl
    · rintro rfl
      exact hplain.ne_dots rfl
  · intro hroom
    rw [Session.errorCount_after hopen]
    exact UInt64.toNat_ofNat_of_lt hroom

/-- The use of a tool on a file, and whether it fails. -/
def Occurrence.ofUse (tool file : String) (fails : Bool) : Occurrence :=
  .ofTool "PostToolUse" tool (some (.object [("file_path", .string file)]))
    (some (.object [("error", .bool fails)]))

/-- Files are modified and tools fail, in one session and then in another. One name comes up
    twice, one path leads nowhere, and one tool is not recorded. -/
def usedTools : List Occurrence :=
  [.named "SessionStart" none, .ofUse "Write" "/p/old.rs" true,
    .named "SessionStart" none, .ofUse "Edit" "/p/a.rs" true,
    .ofUse "Bash" "/p/c.rs" true, .ofUse "MultiEdit" "b.rs/." false,
    .ofUse "Write" "/q/a.rs" false, .ofUse "Write" "/q/.." false, .named "Stop" none,
    .ofUse "Skill" "/p/c.rs" true]

theorem files_and_failures_of_usedTools :
    ∃ s, Session.after none usedTools = some s ∧ s.filesModified = ["a.rs", "b.rs"] ∧
      s.errorCount.toNat = 2 := by
  obtain ⟨s, hopen⟩ : ∃ s, Session.after none usedTools = some s :=
    Option.isSome_iff_exists.1 (by decide +kernel)
  obtain ⟨hfiles, -, -, herrors⟩ := files_and_failures_of_uses usedTools s hopen
  have hnames : (((Session.uses usedTools).filterMap ToolUse.fileName?).filter
      fun name => name ≠ "").eraseDups = ["a.rs", "b.rs"] := by decide +kernel
  have hfailures : (Session.uses usedTools).countP ToolUse.failed = 2 := by decide +kernel
  rw [hnames] at hfiles
  rw [hfailures] at herrors
  exact ⟨s, hopen, hfiles, herrors (by decide)⟩

end SessionLog
