/-
  SessionLog/Proofs/Transcript/Lines.lean
  =======================================
  **The entries of a transcript are those of its lines, whatever their ends are.**

  A line is trimmed before it is read as an entry, and a line of blanks is none. So nothing
  is lost with a carriage return that is taken off the end of a line, with what is no line
  behind the last line feed, or with the blanks that are trimmed from a content before it is
  cut into lines.
-/
import SessionLog.Proofs.Text.Blank
import SessionLog.Proofs.Text.Split
import SessionLog.Transcript.Scan

namespace SessionLog.Transcript

/-! ### Blanks around entries -/

namespace Entry

theorem parse?_of_isAllBlank {line : List Char} (h : Text.isAllBlank line = true) :
    parse? line = none := by
  rw [parse?, Text.trim_eq_nil h]
  rfl

theorem parse?_blanks_append {front : List Char} (h : Text.isAllBlank front = true)
    (line : List Char) : parse? (front ++ line) = parse? line := by
  rw [parse?, parse?, Text.trim_append_left h]

theorem parse?_append_blanks {back : List Char} (h : Text.isAllBlank back = true)
    (line : List Char) : parse? (line ++ back) = parse? line := by
  rw [parse?, parse?, Text.trim_append_right h]

theorem parse?_dropReturn (line : List Char) : parse? (Text.dropReturn line) = parse? line := by
  rw [Text.dropReturn]
  split
  · rename_i hreturn
    obtain ⟨front, rfl⟩ := List.getLast?_eq_some_iff.1 hreturn
    rw [List.dropLast_concat, parse?_append_blanks (by decide)]
  · rfl

end Entry

/-! ### Ends of lines -/

/-- The cases are those of the ends: of the last line nothing is taken off, but it counts only
    if there is something in it. -/
theorem filterMap_parse?_dropEnds (found : List (List Char)) :
    (Text.dropEnds found).filterMap Entry.parse? = found.filterMap Entry.parse? := by
  fun_induction Text.dropEnds found with
  | case1 => rfl
  | case2 => rfl
  | case3 last hlast => rfl
  | case4 line next rest ih =>
    rw [List.filterMap_cons, List.filterMap_cons, Entry.parse?_dropReturn, ih]

theorem entries_eq_filterMap (content : List Char) :
    entries content = (Text.lines content).filterMap Entry.parse? :=
  filterMap_parse?_dropEnds _

theorem entries_append (front back : List Char) :
    entries (front ++ '\n' :: back) = entries front ++ entries back := by
  rw [entries_eq_filterMap, entries_eq_filterMap, entries_eq_filterMap, Text.lines,
    Text.split_append, List.filterMap_append]
  rfl

theorem entries_of_no_feed {line : List Char} (h : '\n' ∉ line) :
    entries line = (Entry.parse? line).toList := by
  rw [entries_eq_filterMap, Text.lines, Text.split_of_not_mem h]
  cases hentry : Entry.parse? line with
  | none => simp [hentry]
  | some entry => simp [hentry]

/-! ### Blanks around a content -/

theorem entries_blank_cons {c : Char} (hc : Text.isBlank c = true) (text : List Char) :
    entries (c :: text) = entries text := by
  by_cases hfeed : c = '\n'
  · rw [hfeed, ← List.nil_append ('\n' :: text), entries_append]
    rfl
  · have hblank : Text.isAllBlank [c] = true := by simpa [Text.isAllBlank] using hc
    have hline {line : List Char} (h : '\n' ∉ line) : entries (c :: line) = entries line := by
      have hcons : '\n' ∉ c :: line := by simp [h, Ne.symm hfeed]
      rw [entries_of_no_feed hcons, entries_of_no_feed h, ← List.singleton_append,
        Entry.parse?_blanks_append hblank]
    induction text using Text.induction_lines with
    | last line h => exact hline h
    | more line rest h _ => rw [← List.cons_append, entries_append, entries_append, hline h]

theorem entries_concat_blank {c : Char} (hc : Text.isBlank c = true) (text : List Char) :
    entries (text ++ [c]) = entries text := by
  by_cases hfeed : c = '\n'
  · rw [hfeed, entries_append]
    exact List.append_nil _
  · have hblank : Text.isAllBlank [c] = true := by simpa [Text.isAllBlank] using hc
    induction text using Text.induction_lines with
    | last line h =>
      have hconcat : '\n' ∉ line ++ [c] := by simp [h, Ne.symm hfeed]
      rw [entries_of_no_feed hconcat, entries_of_no_feed h, Entry.parse?_append_blanks hblank]
    | more line rest h ih =>
      rw [List.append_assoc, List.cons_append, entries_append, entries_append, ih]

/-- Blanks around a content are not seen, line feeds among them. -/
@[simp] theorem entries_trim (content : List Char) :
    entries (Text.trim content) = entries content := by
  have hfront (front text : List Char) (h : Text.isAllBlank front = true) :
      entries (front ++ text) = entries text := by
    induction front with
    | nil => rfl
    | cons c front ih =>
      rw [Text.isAllBlank, List.all_cons, Bool.and_eq_true] at h
      rw [List.cons_append, entries_blank_cons h.1, ih h.2]
  have hback (text back : List Char) (h : Text.isAllBlank back = true) :
      entries (text ++ back) = entries text := by
    induction back generalizing text with
    | nil => rw [List.append_nil]
    | cons c back ih =>
      rw [Text.isAllBlank, List.all_cons, Bool.and_eq_true] at h
      rw [← List.singleton_append, ← List.append_assoc, ih _ h.2, entries_concat_blank h.1]
  obtain ⟨front, back, hcontent, hblank, hblank'⟩ := Text.exists_blanks_around content
  calc
    entries (Text.trim content) = entries (Text.trim content ++ back) := (hback _ _ hblank').symm
    _ = entries (front ++ (Text.trim content ++ back)) := (hfront _ _ hblank).symm
    _ = entries content := by rw [← hcontent]

theorem newestText?_eq_findSome? (content : List Char) :
    newestText? content = (entries content).reverse.findSome? Entry.assistantText? := by
  rw [newestText?, entries_trim]

end SessionLog.Transcript
