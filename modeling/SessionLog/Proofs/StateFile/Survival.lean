/-
  SessionLog/Proofs/StateFile/Survival.lean
  =========================================
  **The sessions that survive the state file are those that can be read from one.**

  A session is read back as it was if it has the current version and its leap seconds end
  minutes. Whatever lies in a file, a session that is read from it is such a session: a
  record of another version is none, and a text shows a leap second as the second of 60.
-/
import SessionLog.Proofs.StateFile

namespace SessionLog

/-! ### Readers whose results have a property -/

namespace Json

variable {α : Type} {read? : Json → Option α} {p : α → Prop}

/-- Whatever the reader makes of a value has the property. -/
def Yields (read? : Json → Option α) (p : α → Prop) : Prop :=
  ∀ value a, read? value = some a → p a

theorem Yields.required? (h : Yields read? p) {fields : Fields Json} {name : String} {a : α}
    (hread : fields.required? name read? = some a) : p a := by
  obtain ⟨value, -, hvalue⟩ := Option.bind_eq_some_iff.1 hread
  exact h value a hvalue

theorem Yields.withDefault? (h : Yields read? p) {fields : Fields Json} {name : String}
    {default a : α} (hdefault : p default)
    (hread : fields.withDefault? name default read? = some a) : p a := by
  rw [Fields.withDefault?] at hread
  split at hread
  · cases hread
    exact hdefault
  · exact h _ a hread

theorem Yields.nullable? (h : Yields read? p) :
    Yields (nullable? read?) fun o => ∀ a ∈ o, p a := by
  intro value o hread a ha
  cases ha
  rw [Json.nullable?.eq_def] at hread
  split at hread
  · cases hread
  · obtain ⟨b, hvalue, hb⟩ := Option.map_eq_some_iff.1 hread
    cases hb
    exact h value a hvalue

end Json

/-! ### Times that are read -/

open Json

theorem DateTime.leapEndsMinute_of_fields? {gap : List Char → List Char} {text : List Char}
    {t : DateTime} (h : fields? gap text = some t) : t.time.LeapEndsMinute := by
  simp only [fields?, Option.bind_eq_bind, Option.bind_eq_some_iff] at h
  obtain ⟨_, -, _, -, _, -, _, -, _, -, _, -, _, -, _, -, _, -, _, -, _, -, _, -, h⟩ := h
  split at h
  · obtain ⟨date, -, time, htime, hmade⟩ := by
      simpa only [of?, Option.bind_eq_bind, Option.bind_eq_some_iff] using h
    cases hmade
    exact TimeOfDay.leapEndsMinute_of_of? htime
  · cases h

theorem DateTime.yields_leapEndsMinute :
    Yields DateTime.ofJson? fun t => t.time.LeapEndsMinute := by
  intro value t h
  obtain ⟨text, -, htext⟩ := Option.bind_eq_some_iff.1 h
  exact leapEndsMinute_of_fields? htext

theorem PendingTool.yields_leapEndsMinute :
    Yields PendingTool.ofJson? fun pending => pending.time.time.LeapEndsMinute := by
  intro value pending h
  simp only [PendingTool.ofJson?, Option.bind_eq_bind, Option.bind_eq_some_iff] at h
  obtain ⟨fields, -, time, htime, name, -, input, -, hmade⟩ := h
  cases hmade
  exact DateTime.yields_leapEndsMinute.required? htime

theorem PendingSubagent.yields_leapEndsMinute :
    Yields PendingSubagent.ofJson? fun pending => pending.since.time.LeapEndsMinute := by
  intro value pending h
  simp only [PendingSubagent.ofJson?, Option.bind_eq_bind, Option.bind_eq_some_iff] at h
  obtain ⟨fields, -, kind, -, since, hsince, hmade⟩ := h
  cases hmade
  exact DateTime.yields_leapEndsMinute.required? hsince

/-- All times of a session that is read are read from texts. -/
theorem Session.yields_hasTimes :
    Yields Session.ofJson? fun s => s.HasTimes fun t => t.time.LeapEndsMinute := by
  intro value s h
  obtain ⟨fields, -, h⟩ := Option.bind_eq_some_iff.1 h
  obtain ⟨version, -, h⟩ := Option.bind_eq_some_iff.1 h
  obtain ⟨start, hstart, h⟩ := Option.bind_eq_some_iff.1 h
  obtain ⟨id, -, h⟩ := Option.bind_eq_some_iff.1 h
  obtain ⟨transcriptPath, -, h⟩ := Option.bind_eq_some_iff.1 h
  obtain ⟨projectRoot, -, h⟩ := Option.bind_eq_some_iff.1 h
  obtain ⟨timeline, -, h⟩ := Option.bind_eq_some_iff.1 h
  obtain ⟨pendingTool, htool, h⟩ := Option.bind_eq_some_iff.1 h
  obtain ⟨pendingSubagent, hsubagent, h⟩ := Option.bind_eq_some_iff.1 h
  obtain ⟨filesModified, -, h⟩ := Option.bind_eq_some_iff.1 h
  obtain ⟨errorCount, -, h⟩ := Option.bind_eq_some_iff.1 h
  obtain ⟨tokens, -, h⟩ := Option.bind_eq_some_iff.1 h
  obtain ⟨contextTokens, -, h⟩ := Option.bind_eq_some_iff.1 h
  obtain ⟨model, -, h⟩ := Option.bind_eq_some_iff.1 h
  obtain ⟨watermark, -, hmade⟩ := Option.bind_eq_some_iff.1 h
  cases hmade
  constructor
  · exact DateTime.yields_leapEndsMinute.required? hstart
  · exact PendingTool.yields_leapEndsMinute.nullable?.withDefault? (forall_mem_none _) htool
  · exact PendingSubagent.yields_leapEndsMinute.nullable?.withDefault? (forall_mem_none _)
      hsubagent

/-! ### Sessions that are read -/

namespace StateFile

theorem isKept_of_ofJson {value : Json} {s : Session} (h : (ofJson value).1 = some s) :
    s.IsKept fun t => t.time.LeapEndsMinute := by
  rw [ofJson.eq_def] at h
  split at h
  · cases h
  · split at h
    · cases h
    · rename_i read hread
      split at h
      · rename_i hversion
        cases h
        exact ⟨hversion, Session.yields_hasTimes _ _ hread⟩
      · cases h

theorem isKept_of_ofText {text : List Char} {s : Session} (h : (ofText text).1 = some s) :
    s.IsKept fun t => t.time.LeapEndsMinute := by
  rw [ofText] at h
  split at h
  · cases h
  · split at h
    · cases h
    · exact isKept_of_ofJson h

theorem isKept_of_read {tree : FileTree} {path : String} {s : Session}
    (h : (read tree path).1 = some s) : s.IsKept fun t => t.time.LeapEndsMinute := by
  rw [read] at h
  split at h
  · cases h
  · exact isKept_of_ofText h

/-! ### Sessions that survive -/

/-- Wherever a file can be replaced, the session can take its place and is read back from
    there as it was, with nothing to report. -/
def Survives (s : Session) : Prop :=
  ∀ tree path, Replaceable tree path →
    (store tree path s).2 = .ok () ∧ read (store tree path s).1 path = (some s, [])

theorem survives_of_isKept {s : Session} (h : s.IsKept fun t => t.time.LeapEndsMinute) :
    Survives s := by
  intro tree path hreplaceable
  have hstored : (store tree path s).2 = .ok () := hreplaceable s.text
  exact ⟨hstored, read_of_store h (Prod.ext rfl hstored)⟩

/-- In an empty root a file can be made. -/
theorem replaceable_root : Replaceable .bare "/state" :=
  replaceable_of_clear rfl (by decide +kernel)

theorem isKept_of_survives {s : Session} (h : Survives s) :
    s.IsKept fun t => t.time.LeapEndsMinute := by
  obtain ⟨-, hread⟩ := h _ _ replaceable_root
  exact isKept_of_read (congrArg Prod.fst hread)

/-- The sessions that survive the state file are those of the current version in whose
    times a leap second is the second of 60. Whatever the files are, a session that is read
    from one of them is such a session. -/
theorem session_survives_file :
    (∀ s : Session, Survives s ↔ s.version = Session.currentVersion ∧
      s.HasTimes fun t => t.time.LeapEndsMinute) ∧
    ∀ (tree : FileTree) (path : String) (s : Session), (read tree path).1 = some s →
      s.version = Session.currentVersion ∧ Survives s := by
  constructor
  · intro s
    constructor
    · intro h
      have hkept := isKept_of_survives h
      exact ⟨hkept.version, hkept.times⟩
    · rintro ⟨hversion, htimes⟩
      exact survives_of_isKept ⟨hversion, htimes⟩
  · intro tree path s h
    have hkept := isKept_of_read h
    exact ⟨hkept.version, survives_of_isKept hkept⟩

/-- A record by the order of its fields, with the last ones missing. -/
def shortRecord : String :=
  " [1, \"-12345-2-28T23:59:60.5\", \"\\u00e9\\ud83d\\ude00\\n\", \"/t\", \"\",\n" ++
    "[[\"tool\", \"01-01 00:00\", \"Bash\", \"ls\"],\n" ++
    "[\"subagent\", \"01-01 00:01\", \"Plan\", -9223372036854775808, true]],\n" ++
    "[\"+12024-02-29T23:59:60\", \"Bash\"], null, [\"a.rs\"], 18446744073709551615]\n"

def shortRecordSession : Session where
  version := 1
  start := ⟨⟨-12345, 2, 28, by decide⟩, ⟨86399, 1500000000, by decide, by decide⟩⟩
  id := "é😀\n"
  transcriptPath := "/t"
  projectRoot := ""
  timeline := [.tool "01-01 00:00" "Bash" "ls" none,
    .subagent "01-01 00:01" "Plan" Int64.minValue true]
  pendingTool := some
    ⟨⟨⟨12024, 2, 29, by decide⟩, ⟨86399, 1000000000, by decide, by decide⟩⟩, "Bash", ""⟩
  pendingSubagent := none
  filesModified := ["a.rs"]
  errorCount := 18446744073709551615
  tokens := .zero
  contextTokens := 0
  model := none
  watermark := ""

def shortRecordTree : FileTree :=
  ⟨.root, [(Location.root.child "state".toList, .file (Utf8.encode shortRecord.toList))], []⟩

/-- The session is read from the short record, and survives being written in full. -/
theorem session_survives_file_shortRecord :
    (read shortRecordTree "/state").1 = some shortRecordSession ∧
      Replaceable shortRecordTree "/state" ∧ Survives shortRecordSession ∧
      (shortRecordSession.version = Session.currentVersion ∧
        shortRecordSession.HasTimes fun t => t.time.LeapEndsMinute) := by
  have hread : (read shortRecordTree "/state").1 = some shortRecordSession := by
    decide +kernel
  have hsurvives := (session_survives_file.2 _ _ _ hread).2
  refine ⟨hread, replaceable_of_clear rfl (by decide +kernel), hsurvives, ?_⟩
  exact (session_survives_file.1 shortRecordSession).1 hsurvives

end StateFile

end SessionLog
