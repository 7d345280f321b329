/-
  SessionLog/Proofs/Session/Record.lean
  =====================================
  **Records convey the sessions that they are written of.**

  Every part of a session is conveyed by its record, whatever its strings and counts are.
  Times are conveyed if a clock can show them, which all times of events are. A record that
  lacks some fields or token categories conveys the session with their defaults.
-/
import SessionLog.Proofs.Calendar.Text
import SessionLog.Proofs.Json.Documents

namespace SessionLog

open Json

/-! ### Times and tokens -/

theorem DateTime.conveys (depth : Nat) {t : DateTime} (h : t.time.LeapEndsMinute) :
    Conveys depth t.toJson DateTime.ofJson? t := by
  refine ⟨_, readsAs_string depth _, ?_⟩
  simp [DateTime.ofJson?, Json.string?, DateTime.parse?_text h]

namespace Tokens

/-- Tokens without some categories, which count nothing then. -/
def lacking (categories : List String) (t : Tokens) : Tokens where
  input := if "input" ∈ categories then 0 else t.input
  output := if "output" ∈ categories then 0 else t.output
  cacheRead := if "cache_read" ∈ categories then 0 else t.cacheRead
  cacheCreation := if "cache_creation" ∈ categories then 0 else t.cacheCreation

def members (t : Tokens) : List (String × Json) := t.toJson.members?.getD []

theorem nodup_keys (t : Tokens) : (t.members.map Prod.fst).Nodup := by
  have hkeys : t.members.map Prod.fst = fieldNames := rfl
  rw [hkeys]
  decide

theorem conveys_lacking (depth : Nat) (categories : List String) (t : Tokens) :
    Conveys (depth + 1) (t.toJson.keeping fun name => name ∉ categories) Tokens.ofJson?
      (t.lacking categories) := by
  have hinput := conveys_uint64 depth t.input
  have houtput := conveys_uint64 depth t.output
  have hread := conveys_uint64 depth t.cacheRead
  have hcreation := conveys_uint64 depth t.cacheCreation
  have hmembers : ∀ member ∈ t.members, ∃ read, ReadsAs depth member.2 read := by
    simp only [members, toJson, members?, Option.getD_some, List.forall_mem_cons]
    exact ⟨hinput.exists_readsAs, houtput.exists_readsAs, hread.exists_readsAs,
      hcreation.exists_readsAs, List.forall_mem_nil _⟩
  obtain ⟨fields, hreads, hfields⟩ :=
    readsAs_keeping t.nodup_keys fun member hmember _ => hmembers member hmember
  refine ⟨_, hreads, ?_⟩
  refine Option.bind_eq_some_iff.2 ⟨_, hfields.withDefault? rfl (fun _ => hinput) 0, ?_⟩
  refine Option.bind_eq_some_iff.2 ⟨_, hfields.withDefault? rfl (fun _ => houtput) 0, ?_⟩
  refine Option.bind_eq_some_iff.2 ⟨_, hfields.withDefault? rfl (fun _ => hread) 0, ?_⟩
  refine Option.bind_eq_some_iff.2 ⟨_, hfields.withDefault? rfl (fun _ => hcreation) 0, ?_⟩
  rfl

theorem conveys (depth : Nat) (t : Tokens) : Conveys (depth + 1) t.toJson Tokens.ofJson? t :=
  t.conveys_lacking depth []

end Tokens

/-! ### Entries of the timeline -/

namespace TimelineEntry

variable {depth : Nat} {record : List (String × Json)} {fields : Fields Json}

theorem kind?_object (hfields : Holds depth record fields) {kind : String}
    (hkind : record.lookup "type" = some (.string kind)) :
    kind? (.object fields) = some (kind, .object fields) := by
  have htype := hfields.required? hkind (conveys_string depth kind)
  exact Option.bind_eq_some_iff.2 ⟨kind, htype, rfl⟩

theorem content?_object (hfields : Holds depth record fields) {ts content : String}
    (hts : record.lookup "ts" = some (.string ts))
    (hcontent : record.lookup "content" = some (.string content)) :
    content? (.object fields) = some (ts, content) := by
  refine Option.bind_eq_some_iff.2 ⟨_, hfields.required? hts (conveys_string depth ts), ?_⟩
  exact Option.bind_eq_some_iff.2
    ⟨_, hfields.required? hcontent (conveys_string depth content), rfl⟩

def members (entry : TimelineEntry) : List (String × Json) := entry.toJson.members?.getD []

theorem toJson_eq_object (entry : TimelineEntry) : entry.toJson = .object entry.members := by
  cases entry <;> rfl

theorem nodup_keys (entry : TimelineEntry) : (entry.members.map Prod.fst).Nodup := by
  cases entry with
  | tool ts name input output =>
    cases output <;> simp [members, toJson, members?, outputField]
  | _ => simp [members, toJson, members?]

theorem members_readsAs (depth : Nat) (entry : TimelineEntry) :
    ∀ member ∈ entry.members, ∃ read, ReadsAs depth member.2 read := by
  have hstring (text : String) : ∃ read, ReadsAs depth (.string text) read :=
    ⟨_, readsAs_string depth text⟩
  cases entry with
  | tool ts name input output =>
    cases output <;> simp [members, toJson, members?, outputField, hstring]
  | subagent ts subagentType seconds success =>
    have hseconds : ∃ read, ReadsAs depth (ofInt64 seconds) read := ⟨_, readsAs_int64 depth seconds⟩
    have hsuccess : ∃ read, ReadsAs depth (.bool success) read := ⟨_, readsAs_bool depth success⟩
    simp [members, toJson, members?, hstring, hseconds, hsuccess]
  | _ => simp [members, toJson, members?, hstring]

/-- The record of an entry conveys it. The cases are the kinds of entries. -/
theorem conveys (depth : Nat) (entry : TimelineEntry) :
    Conveys (depth + 1) entry.toJson ofJson? entry := by
  obtain ⟨fields, hreads, hfields⟩ :=
    readsAs_record entry.nodup_keys (members_readsAs depth entry)
  rw [toJson_eq_object]
  refine ⟨_, hreads, ?_⟩
  have hstring (text : String) := conveys_string depth text
  cases entry with
  | prompt ts content =>
    rw [ofJson?, kind?_object hfields rfl]
    exact Option.map_eq_some_iff.2 ⟨_, content?_object hfields rfl rfl, rfl⟩
  | response ts content =>
    rw [ofJson?, kind?_object hfields rfl]
    exact Option.map_eq_some_iff.2 ⟨_, content?_object hfields rfl rfl, rfl⟩
  | tool ts name input output =>
    have houtput :
        Fields.withDefault? fields "output" none (nullable? string?) = some output := by
      cases output with
      | none => exact hfields.default rfl none _
      | some text =>
        have htext : Conveys depth (.string text) (nullable? string?) (some text) :=
          ⟨_, readsAs_string depth text, rfl⟩
        exact hfields.withDefault? rfl htext none
    rw [ofJson?, kind?_object hfields rfl]
    refine Option.bind_eq_some_iff.2 ⟨_, hfields.required? rfl (hstring ts), ?_⟩
    refine Option.bind_eq_some_iff.2 ⟨_, hfields.required? rfl (hstring name), ?_⟩
    refine Option.bind_eq_some_iff.2 ⟨_, hfields.required? rfl (hstring input), ?_⟩
    exact Option.bind_eq_some_iff.2 ⟨_, houtput, rfl⟩
  | subagent ts subagentType seconds success =>
    rw [ofJson?, kind?_object hfields rfl]
    refine Option.bind_eq_some_iff.2 ⟨_, hfields.required? rfl (hstring ts), ?_⟩
    refine Option.bind_eq_some_iff.2 ⟨_, hfields.required? rfl (hstring subagentType), ?_⟩
    refine Option.bind_eq_some_iff.2
      ⟨_, hfields.required? rfl (conveys_int64 depth seconds), ?_⟩
    exact Option.bind_eq_some_iff.2
      ⟨_, hfields.required? rfl (conveys_bool depth success), rfl⟩
  | permissionRequest ts name input =>
    rw [ofJson?, kind?_object hfields rfl]
    refine Option.bind_eq_some_iff.2 ⟨_, hfields.required? rfl (hstring ts), ?_⟩
    refine Option.bind_eq_some_iff.2 ⟨_, hfields.required? rfl (hstring name), ?_⟩
    exact Option.bind_eq_some_iff.2 ⟨_, hfields.required? rfl (hstring input), rfl⟩

end TimelineEntry

/-! ### Markers -/

theorem PendingTool.conveys (depth : Nat) {pending : PendingTool}
    (h : pending.time.time.LeapEndsMinute) :
    Conveys (depth + 1) pending.toJson PendingTool.ofJson? pending := by
  have htime := DateTime.conveys depth h
  have hname := conveys_string depth pending.name
  have hinput := conveys_string depth pending.input
  obtain ⟨fields, hreads, hfields⟩ : ∃ fields,
      ReadsAs (depth + 1) pending.toJson (.object fields) ∧
      Holds depth [("ts", pending.time.toJson), ("tool", .string pending.name),
        ("input", .string pending.input)] fields := by
    apply readsAs_record (by simp)
    simp only [List.forall_mem_cons]
    exact ⟨htime.exists_readsAs, hname.exists_readsAs, hinput.exists_readsAs,
      List.forall_mem_nil _⟩
  refine ⟨_, hreads, ?_⟩
  refine Option.bind_eq_some_iff.2 ⟨_, hfields.required? rfl htime, ?_⟩
  refine Option.bind_eq_some_iff.2 ⟨_, hfields.required? rfl hname, ?_⟩
  exact Option.bind_eq_some_iff.2 ⟨_, hfields.withDefault? rfl hinput "", rfl⟩

theorem PendingSubagent.conveys (depth : Nat) {pending : PendingSubagent}
    (h : pending.since.time.LeapEndsMinute) :
    Conveys (depth + 1) pending.toJson PendingSubagent.ofJson? pending := by
  have hkind := conveys_string depth pending.kind
  have htime := DateTime.conveys depth h
  obtain ⟨fields, hreads, hfields⟩ : ∃ fields,
      ReadsAs (depth + 1) pending.toJson (.object fields) ∧
      Holds depth [("type", .string pending.kind), ("start_time", pending.since.toJson)]
        fields := by
    apply readsAs_record (by simp)
    simp only [List.forall_mem_cons]
    exact ⟨hkind.exists_readsAs, htime.exists_readsAs, List.forall_mem_nil _⟩
  refine ⟨_, hreads, ?_⟩
  refine Option.bind_eq_some_iff.2 ⟨_, hfields.required? rfl hkind, ?_⟩
  exact Option.bind_eq_some_iff.2 ⟨_, hfields.required? rfl htime, rfl⟩

/-! ### Sessions -/

theorem Json.conveys_uint32 (depth : Nat) (n : UInt32) :
    Conveys depth (.number (.integer n.toNat)) uint32? n := by
  have hrange : (0 : Int) ≤ n.toNat ∧ (n.toNat : Int) ≤ Number.maxUnsigned :=
    ⟨Int.natCast_nonneg _, Int.le_trans (Int.le_of_lt (Int.ofNat_lt.2 n.toNat_lt)) (by decide)⟩
  refine ⟨_, readsAs_integer (Int.le_trans (by decide) hrange.1) hrange.2 depth, ?_⟩
  have hwide : (UInt64.ofNat n.toNat).toNat = n.toNat :=
    UInt64.toNat_ofNat_of_lt (Nat.lt_trans n.toNat_lt (by decide))
  simp only [uint32?, uint64?, number?, Option.bind_some, Number.toUInt64?]
  rw [if_pos hrange, Option.bind_some, Int.toNat_natCast, hwide, if_pos n.toNat_lt,
    UInt32.ofNat_toNat]

theorem forall_mem_none {α : Type} (p : α → Prop) : ∀ a ∈ (none : Option α), p a :=
  fun _ h => (Option.not_mem_none _ h).elim

theorem forall_mem_some {α : Type} {p : α → Prop} {a : α} (h : p a) : ∀ b ∈ some a, p b := by
  intro b hb
  cases hb
  exact h

namespace Session

structure HasTimes (p : DateTime → Prop) (s : Session) : Prop where
  start : p s.start
  pendingTool : ∀ pending ∈ s.pendingTool, p pending.time
  pendingSubagent : ∀ pending ∈ s.pendingSubagent, p pending.since

/-- A session without some fields, which have their defaults then, and without some token
    categories. -/
def lacking (names categories : List String) (s : Session) : Session where
  version := if "version" ∈ names then currentVersion else s.version
  start := s.start
  id := if "session_id" ∈ names then "" else s.id
  transcriptPath := if "transcript_path" ∈ names then "" else s.transcriptPath
  projectRoot := if "project_root" ∈ names then "" else s.projectRoot
  timeline := if "timeline" ∈ names then [] else s.timeline
  pendingTool := if "pending_tool" ∈ names then none else s.pendingTool
  pendingSubagent := if "pending_subagent" ∈ names then none else s.pendingSubagent
  filesModified := if "files_modified" ∈ names then [] else s.filesModified
  errorCount := if "error_count" ∈ names then 0 else s.errorCount
  tokens := if "tokens" ∈ names then .zero else s.tokens.lacking categories
  contextTokens := if "context_tokens" ∈ names then 0 else s.contextTokens
  model := if "model" ∈ names then none else s.model
  watermark := if "last_processed_timestamp" ∈ names then "" else s.watermark

/-- The record of a session without some token categories. -/
def recordWith (categories : List String) (s : Session) : Json :=
  s.toJson.under "tokens" (keeping fun name => name ∉ categories)

def members (categories : List String) (s : Session) : List (String × Json) :=
  (s.recordWith categories).members?.getD []

@[simp] theorem map_fst_members (categories : List String) (s : Session) :
    (s.members categories).map Prod.fst = fieldNames := rfl

theorem nodup_keys (categories : List String) (s : Session) :
    ((s.members categories).map Prod.fst).Nodup := by
  rw [map_fst_members]
  decide

theorem conveys_timeline (depth : Nat) (s : Session) :
    Conveys (depth + 2) (.array (s.timeline.map TimelineEntry.toJson))
      (list? TimelineEntry.ofJson?) s.timeline :=
  conveys_list fun entry _ => entry.conveys depth

theorem conveys_pendingTool (depth : Nat) {s : Session}
    (h : ∀ pending ∈ s.pendingTool, pending.time.time.LeapEndsMinute) :
    Conveys (depth + 1) (ofOption PendingTool.toJson s.pendingTool)
      (nullable? PendingTool.ofJson?) s.pendingTool :=
  conveys_option rfl fun pending hpending => PendingTool.conveys depth (h pending hpending)

theorem conveys_pendingSubagent (depth : Nat) {s : Session}
    (h : ∀ pending ∈ s.pendingSubagent, pending.since.time.LeapEndsMinute) :
    Conveys (depth + 1) (ofOption PendingSubagent.toJson s.pendingSubagent)
      (nullable? PendingSubagent.ofJson?) s.pendingSubagent :=
  conveys_option rfl fun pending hpending => PendingSubagent.conveys depth (h pending hpending)

theorem conveys_filesModified (depth : Nat) (s : Session) :
    Conveys (depth + 1) (.array (s.filesModified.map .string)) (list? string?) s.filesModified :=
  conveys_list fun name _ => conveys_string depth name

theorem conveys_model (depth : Nat) (s : Session) :
    Conveys depth (ofOption .string s.model) (nullable? string?) s.model :=
  conveys_option rfl fun name _ => conveys_string depth name

/-- Each member of the record reads, unless it is left out, and from fields that hold the
    others the session is read with defaults: field by field, in the order of the record. A
    marker has to have a time that can be shown only if it is kept. -/
theorem reads_lacking (depth : Nat) {names categories : List String} {s : Session}
    (hstart : "start_time" ∉ names)
    (htimes : (s.lacking names categories).HasTimes fun t => t.time.LeapEndsMinute) :
    (∀ member ∈ s.members categories, member.1 ∉ names →
      ∃ read, ReadsAs (depth + 2) member.2 read) ∧
    ∀ fields, HoldsBut names (depth + 2) (s.recordWith categories) fields →
      ofJson? (.object fields) = some (s.lacking names categories) := by
  have hstring (text : String) := conveys_string (depth + 2) text
  have hversion := conveys_uint32 (depth + 2) s.version
  have hstarted := DateTime.conveys (depth + 2) htimes.start
  have htimeline := s.conveys_timeline depth
  have htool (h : "pending_tool" ∉ names) :
      Conveys (depth + 2) (ofOption PendingTool.toJson s.pendingTool)
        (nullable? PendingTool.ofJson?) s.pendingTool := by
    have hpending := htimes.pendingTool
    simp only [lacking, if_neg h] at hpending
    exact conveys_pendingTool (depth + 1) hpending
  have hsubagent (h : "pending_subagent" ∉ names) :
      Conveys (depth + 2) (ofOption PendingSubagent.toJson s.pendingSubagent)
        (nullable? PendingSubagent.ofJson?) s.pendingSubagent := by
    have hpending := htimes.pendingSubagent
    simp only [lacking, if_neg h] at hpending
    exact conveys_pendingSubagent (depth + 1) hpending
  have hfiles := s.conveys_filesModified (depth + 1)
  have herrors := conveys_uint64 (depth + 2) s.errorCount
  have htokens := s.tokens.conveys_lacking (depth + 1) categories
  have hcontext := conveys_uint64 (depth + 2) s.contextTokens
  have hmodel := s.conveys_model (depth + 2)
  constructor
  · simp only [members, recordWith, under, toJson, members?, Option.getD_some, List.map_cons,
      List.map_nil, List.forall_mem_cons]
    exact ⟨fun _ => hversion.exists_readsAs, fun _ => hstarted.exists_readsAs,
      fun _ => (hstring _).exists_readsAs, fun _ => (hstring _).exists_readsAs,
      fun _ => (hstring _).exists_readsAs, fun _ => htimeline.exists_readsAs,
      fun h => (htool h).exists_readsAs, fun h => (hsubagent h).exists_readsAs,
      fun _ => hfiles.exists_readsAs, fun _ => herrors.exists_readsAs,
      fun _ => htokens.exists_readsAs, fun _ => hcontext.exists_readsAs,
      fun _ => hmodel.exists_readsAs, fun _ => (hstring _).exists_readsAs,
      List.forall_mem_nil _⟩
  · intro fields h
    have hfound := h.exists_lookup rfl hstart hstarted
    refine Option.bind_eq_some_iff.2 ⟨_, h.withDefault? rfl (fun _ => hversion) _, ?_⟩
    refine Option.bind_eq_some_iff.2 ⟨_, required?_of_found hfound, ?_⟩
    refine Option.bind_eq_some_iff.2 ⟨_, h.withDefault? rfl (fun _ => hstring s.id) _, ?_⟩
    refine Option.bind_eq_some_iff.2
      ⟨_, h.withDefault? rfl (fun _ => hstring s.transcriptPath) _, ?_⟩
    refine Option.bind_eq_some_iff.2
      ⟨_, h.withDefault? rfl (fun _ => hstring s.projectRoot) _, ?_⟩
    refine Option.bind_eq_some_iff.2 ⟨_, h.withDefault? rfl (fun _ => htimeline) _, ?_⟩
    refine Option.bind_eq_some_iff.2 ⟨_, h.withDefault? rfl htool _, ?_⟩
    refine Option.bind_eq_some_iff.2 ⟨_, h.withDefault? rfl hsubagent _, ?_⟩
    refine Option.bind_eq_some_iff.2 ⟨_, h.withDefault? rfl (fun _ => hfiles) _, ?_⟩
    refine Option.bind_eq_some_iff.2 ⟨_, h.withDefault? rfl (fun _ => herrors) _, ?_⟩
    refine Option.bind_eq_some_iff.2 ⟨_, h.withDefault? rfl (fun _ => htokens) _, ?_⟩
    refine Option.bind_eq_some_iff.2 ⟨_, h.withDefault? rfl (fun _ => hcontext) _, ?_⟩
    refine Option.bind_eq_some_iff.2 ⟨_, h.withDefault? rfl (fun _ => hmodel) _, ?_⟩
    exact Option.bind_eq_some_iff.2
      ⟨_, h.withDefault? rfl (fun _ => hstring s.watermark) _, rfl⟩

/-- What is left of the record of a session conveys it with defaults. -/
theorem conveys_lacking (depth : Nat) {names categories : List String} {s : Session}
    (hstart : "start_time" ∉ names)
    (htimes : (s.lacking names categories).HasTimes fun t => t.time.LeapEndsMinute) :
    Conveys (depth + 3) ((s.recordWith categories).keeping fun name => name ∉ names) ofJson?
      (s.lacking names categories) := by
  obtain ⟨hmembers, hread⟩ := reads_lacking depth hstart htimes
  obtain ⟨fields, hreads, hfields⟩ := readsAs_keeping (s.nodup_keys categories) hmembers
  exact ⟨_, hreads, hread fields hfields⟩

/-- The record of a session conveys it. -/
theorem conveys (depth : Nat) {s : Session} (h : s.HasTimes fun t => t.time.LeapEndsMinute) :
    Conveys (depth + 3) s.toJson ofJson? s := by
  have hsession : s.lacking [] [] = s := rfl
  have hconveys := conveys_lacking depth List.not_mem_nil (hsession.symm ▸ h)
  rwa [hsession] at hconveys

end Session

end SessionLog
