/-
  SessionLog/Proofs/Transcript/Cut.lean
  =====================================
  **A line that is cut says nothing.**

  A line that is an entry is a text in brackets. What is left of it behind a cut is none, so
  it is no entry either, unless only blanks are cut off; then it is the same entry. So the
  entries in the tail of a transcript are the last ones of the whole, if all its lines that
  are not blank are entries, and the tail gives the latest response of the whole or none.
-/
import SessionLog.Proofs.Json.Extent
import SessionLog.Proofs.Text.Split
import SessionLog.Proofs.Text.Utf8.Suffix
import SessionLog.Proofs.Transcript.Tail

namespace SessionLog

namespace Transcript

/-! ### Entries that are cut -/

theorem Entry.isEnclosed {line : List Char} {entry : Entry} (h : parse? line = some entry) :
    Raw.IsEnclosed line := by
  obtain ⟨raw, hraw, hentry⟩ := Option.bind_eq_some_iff.1 h
  obtain ⟨fields, hfields, -⟩ := Option.bind_eq_some_iff.1 hentry
  have hshape : (∃ items, raw = .array items) ∨ ∃ members, raw = .object members := by
    cases raw with
    | array items => exact Or.inl ⟨items, rfl⟩
    | object members => exact Or.inr ⟨members, rfl⟩
    | _ => cases hfields
  obtain ⟨front, back, hline, hfront, hback⟩ := Text.exists_blanks_around line
  rw [hline]
  exact (Raw.isEnclosed_of_parse? hraw hshape).append_blanks hfront hback

theorem Entry.parse?_of_cut {front back : List Char}
    (h : (parse? (front ++ back)).isSome = true) (hfront : Text.isAllBlank front = false) :
    parse? back = none := by
  obtain ⟨entry, hentry⟩ := Option.isSome_iff_exists.1 h
  rw [Option.eq_none_iff_forall_ne_some]
  intro rest hrest
  exact (isEnclosed hentry).not_isEnclosed_of_append hfront (isEnclosed hrest)

/-- Every line that is not blank is an entry. -/
def AllEntries (content : List Char) : Prop :=
  ∀ line ∈ Text.lines content, Text.isAllBlank line = true ∨ (Entry.parse? line).isSome = true

/-- Behind a cut there are the last entries of the whole. -/
theorem AllEntries.entries_suffix {front back : List Char} (h : AllEntries (front ++ back)) :
    entries back <:+ entries (front ++ back) := by
  obtain ⟨whole, cut, piece, rest, hback, hlines⟩ := Text.exists_split_append '\n' front back
  have hpiece : Entry.parse? piece = none ∨
      Entry.parse? piece = Entry.parse? (cut ++ piece) := by
    cases hcut : Text.isAllBlank cut with
    | true =>
      right
      rw [Entry.parse?_blanks_append hcut]
    | false =>
      left
      have hline := h (cut ++ piece) (by rw [Text.lines, hlines]; simp)
      refine Entry.parse?_of_cut (hline.resolve_left ?_) hcut
      intro hblank
      rw [(Text.isAllBlank_append.1 hblank).1] at hcut
      cases hcut
  rw [entries_eq_filterMap, entries_eq_filterMap, Text.lines, Text.lines, hback, hlines,
    List.filterMap_append]
  rcases hpiece with hnone | hsame
  · rw [List.filterMap_cons_none hnone]
    exact ((List.suffix_cons _ rest).filterMap _).trans (List.suffix_append _ _)
  · rw [List.filterMap_cons, List.filterMap_cons, hsame]
    exact List.suffix_append _ _

theorem newestText?_of_suffix {content back : List Char}
    (h : entries back <:+ entries content) :
    newestText? back = none ∨ newestText? back = newestText? content := by
  obtain ⟨before, hbefore⟩ := h
  rw [newestText?_eq_findSome?, newestText?_eq_findSome?, ← hbefore, List.reverse_append,
    List.findSome?_append]
  cases (entries back).reverse.findSome? Entry.assistantText? with
  | none => exact Or.inl rfl
  | some text => exact Or.inr rfl

/-- What is left of an entry behind a cut is no entry, unless only blanks are cut off. So of a
    transcript in which every line that is not blank is an entry, the latest response in the
    tail is that of the whole, or there is none in it. -/
theorem cut_line_is_no_entry :
    (∀ line front back : List Char, (Entry.parse? line).isSome = true → line = front ++ back →
      (∃ c ∈ front, Text.isBlank c = false) → Entry.parse? back = none) ∧
    ∀ (octets : List UInt8) (maxLength : Nat), AllEntries (Utf8.decodeLenient octets) →
      latestIn? (some octets) maxLength = none ∨
        latestIn? (some octets) maxLength =
          latestResponse? (Utf8.decodeLenient octets) maxLength := by
  constructor
  · rintro line front back hline rfl ⟨c, hc, hblank⟩
    refine Entry.parse?_of_cut hline ?_
    rw [Text.isAllBlank, List.all_eq_false]
    exact ⟨c, hc, Bool.eq_false_iff.1 hblank⟩
  · intro octets maxLength hentries
    obtain ⟨front, hfront⟩ :=
      Utf8.decodeLenient_suffix (octets.take (octets.length - tailSize)) (tail octets)
    rw [tail, List.take_append_drop, ← tail] at hfront
    rw [← hfront] at hentries
    have hsuffix := hentries.entries_suffix
    rw [hfront] at hsuffix
    rw [latestIn?_eq_map, latestResponse?, newestIn?]
    rcases newestText?_of_suffix hsuffix with hnone | hsame
    · left
      rw [hnone, Option.map_none]
    · right
      rw [hsame]

theorem mem_lines_append_feed {front back : List UInt8} {line : List Char} :
    line ∈ Text.lines (Utf8.decodeLenient (front ++ 0x0A :: back)) ↔
      line ∈ Text.lines (Utf8.decodeLenient front) ∨
        line ∈ Text.lines (Utf8.decodeLenient back) := by
  have hfeed : (0x0A : UInt8).toNat ≤ 0x7F := by decide
  rw [Utf8.decodeLenient_append_cons _ _ hfeed, ← List.mem_append]
  exact iff_of_eq (congrArg (line ∈ ·) (Text.split_append '\n' _ _))

/-- Line feeds alone are read as blank lines. -/
theorem isAllBlank_of_mem_feeds (n : Nat) :
    ∀ line ∈ Text.lines (Utf8.decodeLenient (List.replicate n 0x0A)),
      Text.isAllBlank line = true := by
  induction n with
  | zero => decide
  | succ n ih =>
    intro line hline
    rw [List.replicate_succ, ← List.nil_append (0x0A :: _), mem_lines_append_feed] at hline
    rcases hline with hfirst | hrest
    · revert line
      decide
    · exact ih line hrest

/-- An answer, and behind it line feeds as many as it takes for the tail to start in it. -/
def cutAnswer : List UInt8 := cutLine ++ 0x0A :: List.replicate 51150 0x0A

theorem cut_line_is_no_entry_answer :
    Entry.parse? "[\"assistant\"]\x7d".toList = none ∧
      cutAnswer.length - tailSize = 23 ∧
      (latestIn? (some cutAnswer) 1 = none ∨
        latestIn? (some cutAnswer) 1 = latestResponse? (Utf8.decodeLenient cutAnswer) 1) := by
  have hlength : cutLine.length = 72 := by decide +kernel
  have hwhole : (Entry.parse? "\x7b\"message\":[\"assistant\"]\x7d".toList).isSome = true := by
    decide +kernel
  refine ⟨?_, ?_, ?_⟩
  · exact cut_line_is_no_entry.1 _ "\x7b\"message\":".toList _ hwhole rfl
      ⟨'\x7b', by decide, by decide⟩
  · simp only [cutAnswer, tailSize, List.length_append, List.length_cons, List.length_replicate,
      hlength]
  · apply cut_line_is_no_entry.2
    intro line hline
    rw [cutAnswer, mem_lines_append_feed] at hline
    rcases hline with hanswer | hfeeds
    · right
      revert line
      decide +kernel
    · exact Or.inl (isAllBlank_of_mem_feeds 51150 line hfeeds)

end Transcript

end SessionLog
