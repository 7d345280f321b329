/-
  SessionLog/Proofs/Text/Split.lean
  =================================
  **Texts as their pieces, and as their lines.**

  A text is its pieces put together with the separator between them. Pieces without a
  separator in them are found again in the text that is put together from them; no pieces
  and one empty piece make the same text. So what is shown of a last line, and of a line in
  front of any text, is shown of every text.
-/
import SessionLog.Text.Split

namespace SessionLog.Text

/-! ### Pieces -/

theorem separator_not_mem_of_mem_split {separator : Char} {text piece : List Char}
    (h : piece ∈ split separator text) : separator ∉ piece := by
  induction text generalizing piece with
  | nil =>
    rw [split_nil, List.mem_singleton] at h
    rw [h]
    exact List.not_mem_nil
  | cons c text ih =>
    rw [split_cons, consPiece.eq_def] at h
    split at h
    · rcases List.mem_cons.1 h with rfl | hmem
      · exact List.not_mem_nil
      · exact ih hmem
    · rename_i hc
      split at h
      · rw [List.mem_singleton] at h
        rw [h, List.mem_singleton]
        exact Ne.symm hc
      · rename_i first rest hsplit
        rcases List.mem_cons.1 h with rfl | hmem
        · rw [List.mem_cons, not_or]
          exact ⟨Ne.symm hc, ih (hsplit ▸ List.mem_cons_self)⟩
        · exact ih (hsplit ▸ List.mem_cons_of_mem _ hmem)

theorem intercalate_split (separator : Char) (text : List Char) :
    [separator].intercalate (split separator text) = text := by
  induction text with
  | nil => rfl
  | cons c text ih =>
    rw [split_cons, consPiece.eq_def]
    cases hsplit : split separator text with
    | nil => exact absurd hsplit (split_ne_nil separator text)
    | cons piece rest =>
      rw [hsplit] at ih
      split
      · rename_i hc
        rw [List.intercalate_cons_cons, ih, hc]
        rfl
      · cases rest with
        | nil =>
          rw [← ih]
          rfl
        | cons next rest =>
          rw [List.intercalate_cons_cons] at ih ⊢
          rw [← ih]
          rfl

theorem split_intercalate {separator : Char} {pieces : List (List Char)} (hne : pieces ≠ [])
    (h : ∀ piece ∈ pieces, separator ∉ piece) :
    split separator ([separator].intercalate pieces) = pieces := by
  induction pieces with
  | nil => exact absurd rfl hne
  | cons piece rest ih =>
    have hpiece := split_of_not_mem (h piece List.mem_cons_self)
    cases rest with
    | nil => simpa using hpiece
    | cons next rest =>
      have hrest := ih (List.cons_ne_nil _ _) fun other hother =>
        h other (List.mem_cons_of_mem _ hother)
      rw [List.intercalate_cons_cons, List.append_assoc, List.singleton_append, split_append,
        hpiece, hrest]
      rfl

/-- The pieces of a text in two parts are those of the parts, but for the one that is cut. -/
theorem exists_split_append (separator : Char) (front back : List Char) :
    ∃ whole cut piece rest, split separator back = piece :: rest ∧
      split separator (front ++ back) = whole ++ (cut ++ piece) :: rest := by
  induction front with
  | nil =>
    obtain ⟨piece, rest, hback⟩ := List.exists_cons_of_ne_nil (split_ne_nil separator back)
    exact ⟨[], [], piece, rest, hback, hback⟩
  | cons c front ih =>
    obtain ⟨whole, cut, piece, rest, hback, hsplit⟩ := ih
    rw [List.cons_append, split_cons, hsplit, consPiece.eq_def]
    split
    · exact ⟨[] :: whole, cut, piece, rest, hback, rfl⟩
    · cases whole with
      | nil => exact ⟨[], c :: cut, piece, rest, hback, rfl⟩
      | cons first whole => exact ⟨(c :: first) :: whole, cut, piece, rest, hback, rfl⟩

/-! ### Lines -/

/-- A text of some lines, with a line feed between any two. -/
def ofLines (lines : List (List Char)) : List Char := ['\n'].intercalate lines

@[simp] theorem ofLines_lines (text : List Char) : ofLines (lines text) = text :=
  intercalate_split '\n' text

theorem lines_ofLines {found : List (List Char)} (hne : found ≠ [])
    (h : ∀ line ∈ found, '\n' ∉ line) : lines (ofLines found) = found :=
  split_intercalate hne h

/-- A text is a last line, or a line with a line feed and a text behind it. The induction is
    on the list of its lines. -/
@[elab_as_elim]
theorem induction_lines {motive : List Char → Prop} (text : List Char)
    (last : ∀ line, '\n' ∉ line → motive line)
    (more : ∀ line rest, '\n' ∉ line → motive rest → motive (line ++ '\n' :: rest)) :
    motive text := by
  have hjoined (found : List (List Char)) (hfound : ∀ line ∈ found, '\n' ∉ line) :
      motive (ofLines found) := by
    induction found with
    | nil => exact last [] List.not_mem_nil
    | cons line rest ih =>
      have hline := hfound line List.mem_cons_self
      have hrest := ih fun other hother => hfound other (List.mem_cons_of_mem _ hother)
      cases rest with
      | nil => simpa [ofLines] using last line hline
      | cons next rest =>
        rw [ofLines, List.intercalate_cons_cons, List.append_assoc, List.singleton_append]
        exact more line _ hline hrest
  rw [← ofLines_lines text]
  exact hjoined _ fun line hline => separator_not_mem_of_mem_split hline

end SessionLog.Text
