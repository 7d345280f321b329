/-
  SessionLog/Proofs/Snapshot/Document.lean
  ========================================
  **What a snapshot shows of its session.**

  Eight fields of a snapshot are fields of its session, under the keys and in the form
  that the record of the session has. Readers of that record make the same of both. The
  other fields only have to read as something, for one that did not would break the whole
  document.
-/
import SessionLog.Proofs.Json.Reals
import SessionLog.Proofs.Session.Record
import SessionLog.Proofs.Tokens.Cost
import SessionLog.Snapshot

namespace SessionLog

open Json

namespace Snapshot

/-- The document shows the session: the readers of its record find its fields there. -/
structure Shows (document : Json) (s : Session) : Prop where
  model : (document.get? "model").bind (nullable? string?) = some s.model
  tokens : (document.get? "tokens").bind Tokens.ofJson? = some s.tokens
  contextTokens : (document.get? "context_tokens").bind uint64? = some s.contextTokens
  filesModified : (document.get? "files_modified").bind (list? string?) = some s.filesModified
  errorCount : (document.get? "error_count").bind uint64? = some s.errorCount
  start : (document.get? "start_time").bind DateTime.ofJson? = some s.start
  transcriptPath : (document.get? "transcript_path").bind string? = some s.transcriptPath
  timeline : (document.get? "timeline").bind (list? TimelineEntry.ofJson?) = some s.timeline

theorem Shows.announced {document : Json} {s : Session} (h : Shows document s)
    (pending : Option PendingTool) : Shows document { s with pendingTool := pending } :=
  ⟨h.model, h.tokens, h.contextTokens, h.filesModified, h.errorCount, h.start,
    h.transcriptPath, h.timeline⟩

def members (snapshot : Snapshot) : List (String × Json) := snapshot.toJson.members?.getD []

theorem nodup_keys (snapshot : Snapshot) : (snapshot.members.map Prod.fst).Nodup := by
  have hkeys : snapshot.members.map Prod.fst = ["model", "duration_sec", "cost_estimate",
      "tokens", "context_tokens", "context_limit", "context_used", "context_remaining",
      "files_modified", "error_count", "start_time", "end_time", "transcript_path",
      "timeline"] := rfl
  rw [hkeys]
  decide

/-- The document of a snapshot reads as one that shows the session: field by field, in the
    order of the document. -/
theorem exists_readsAs (depth : Nat) {s : Session} (hstart : s.start.time.LeapEndsMinute)
    (settings : Settings) (now : DateTime) :
    ∃ document, ReadsAs (depth + 3) (take s settings now).toJson document ∧
      Shows document s := by
  have hstring (text : String) : ∃ read, ReadsAs (depth + 2) (.string text) read :=
    ⟨_, readsAs_string (depth + 2) text⟩
  have hnumber (n : Int64) : ∃ read, ReadsAs (depth + 2) (ofInt64 n) read :=
    ⟨_, readsAs_int64 (depth + 2) n⟩
  have hcost : ∃ read, ReadsAs (depth + 2) (.number (.real s.tokens.cost)) read := by
    obtain ⟨number, hreads⟩ := Raw.exists_reads_real s.tokens.isModerate_cost (depth + 2)
    exact ⟨_, readsAs_number hreads⟩
  have hmodel := s.conveys_model (depth + 2)
  have htokens := s.tokens.conveys (depth + 1)
  have hcontext := conveys_uint64 (depth + 2) s.contextTokens
  have hfiles := s.conveys_filesModified (depth + 1)
  have herrors := conveys_uint64 (depth + 2) s.errorCount
  have hbegin := DateTime.conveys (depth + 2) hstart
  have hpath := conveys_string (depth + 2) s.transcriptPath
  have htimeline := s.conveys_timeline depth
  have hreadable : ∀ member ∈ (take s settings now).members,
      ∃ read, ReadsAs (depth + 2) member.2 read := by
    simp only [members, toJson, members?, Option.getD_some, List.forall_mem_cons]
    exact ⟨hmodel.exists_readsAs, hnumber _, hcost, htokens.exists_readsAs,
      hcontext.exists_readsAs, hnumber _, hstring _, hstring _, hfiles.exists_readsAs,
      herrors.exists_readsAs, hbegin.exists_readsAs, hstring _, hpath.exists_readsAs,
      htimeline.exists_readsAs, List.forall_mem_nil _⟩
  obtain ⟨fields, hreads, hfields⟩ := readsAs_record (nodup_keys _) hreadable
  refine ⟨_, hreads, ?_⟩
  exact {
    model := hfields.required? rfl hmodel
    tokens := hfields.required? rfl htokens
    contextTokens := hfields.required? rfl hcontext
    filesModified := hfields.required? rfl hfiles
    errorCount := hfields.required? rfl herrors
    start := hfields.required? rfl hbegin
    transcriptPath := hfields.required? rfl hpath
    timeline := hfields.required? rfl htimeline }

/-- **The text of a snapshot parses, and shows its session.** -/
theorem exists_parse?_text {s : Session} (hstart : s.start.time.LeapEndsMinute)
    (settings : Settings) (now : DateTime) :
    ∃ document, parse? (take s settings now).text = some document ∧ Shows document s := by
  obtain ⟨document, hreads, hshows⟩ := exists_readsAs 124 hstart settings now
  exact ⟨document, (hreads.pretty 0).parse?, hshows⟩

end Snapshot

end SessionLog
