/-
  SessionLog/Proofs/Transcript/Newest.lean
  ========================================
  **The latest response is the newest thing that the assistant has said.**

  A line says something if it is a message of the assistant and there is text in its blocks.
  What is said in a line that is added to a transcript is the latest response from then on;
  a line in which nothing is said leaves the latest response as it is. So after any number of
  added lines it is what is said in the last of them that says anything, or what it was
  before.
-/
import Mathlib.Data.List.Induction
import SessionLog.Proofs.Transcript.Increment

namespace SessionLog

theorem Json.bind_string?_eq_some_iff {value : Option Json} {text : String} :
    value.bind string? = some text ↔ value = some (.string text) := by
  constructor
  · intro h
    obtain ⟨found, hfound, htext⟩ := Option.bind_eq_some_iff.1 h
    cases found <;> cases htext
    exact hfound
  · intro h
    rw [h]
    rfl

theorem Json.bind_items?_eq_some_iff {value : Option Json} {items : List Json} :
    value.bind items? = some items ↔ value = some (.array items) := by
  constructor
  · intro h
    obtain ⟨found, hfound, hitems⟩ := Option.bind_eq_some_iff.1 h
    cases found <;> cases hitems
    exact hfound
  · intro h
    rw [h]
    rfl

namespace Transcript

/-! ### What a line says -/

/-- The block is text, and this is its text. -/
def IsText (block : Json) (text : String) : Prop :=
  block.get? "type" = some (.string "text") ∧ block.get? "text" = some (.string text)

/-- What blocks spell one after another. Those that are no text are passed over. -/
inductive Spells : List Json → List Char → Prop
  | nil : Spells [] []
  | text {block : Json} {blocks : List Json} {text : String} {rest : List Char} :
      IsText block text → Spells blocks rest → Spells (block :: blocks) (text.toList ++ rest)
  | other {block : Json} {blocks : List Json} {rest : List Char} :
      (∀ text, ¬IsText block text) → Spells blocks rest → Spells (block :: blocks) rest

/-- The line is a message of the assistant, and this is what its blocks spell, without blanks
    at the ends. There is something left of it. -/
def Says (line text : List Char) : Prop :=
  ∃ entry message blocks spelled, Entry.parse? line = some entry ∧
    entry.message = some message ∧ message.role = some "assistant" ∧
    message.content = some (.array blocks) ∧ Spells blocks spelled ∧
    text = Text.trim spelled ∧ text ≠ []

theorem blockText?_eq_some_iff {block : Json} {text : String} :
    Entry.blockText? block = some text ↔ IsText block text := by
  rw [Entry.blockText?, Option.ite_none_right_eq_some, Json.bind_string?_eq_some_iff,
    Json.bind_string?_eq_some_iff]
  rfl

theorem spells_iff {blocks : List Json} {spelled : List Char} :
    Spells blocks spelled ↔
      spelled = (blocks.filterMap Entry.blockText?).flatMap String.toList := by
  constructor
  · intro h
    induction h with
    | nil => rfl
    | text htext _ ih => rw [List.filterMap_cons_some (blockText?_eq_some_iff.2 htext), ih]; rfl
    | other hother _ ih =>
      have hnone := Option.eq_none_iff_forall_ne_some.2 fun text htext =>
        hother text (blockText?_eq_some_iff.1 htext)
      rw [List.filterMap_cons_none hnone, ih]
  · rintro rfl
    induction blocks with
    | nil => exact .nil
    | cons block blocks ih =>
      cases hblock : Entry.blockText? block with
      | none =>
        rw [List.filterMap_cons_none hblock]
        refine .other (fun text htext => ?_) ih
        rw [blockText?_eq_some_iff.2 htext] at hblock
        cases hblock
      | some text =>
        rw [List.filterMap_cons_some hblock]
        exact .text (blockText?_eq_some_iff.1 hblock) ih

/-- What the assistant says in a line. -/
def said? (line : List Char) : Option String :=
  (Entry.parse? line).bind Entry.assistantText?

theorem assistantText?_eq_some_iff {entry : Entry} {text : String} :
    entry.assistantText? = some text ↔
      ∃ message blocks, entry.message = some message ∧ message.role = some "assistant" ∧
        message.content = some (.array blocks) ∧ text.toList = Entry.joinedText blocks ∧
        text.toList ≠ [] := by
  constructor
  · intro h
    obtain ⟨message, hmessage, hsaid⟩ := Option.bind_eq_some_iff.1 h
    obtain ⟨hrole, hsaid⟩ := Option.ite_none_right_eq_some.1 hsaid
    obtain ⟨blocks, hblocks, hsaid⟩ := Option.bind_eq_some_iff.1 hsaid
    refine ⟨message, blocks, hmessage, hrole, Json.bind_items?_eq_some_iff.1 hblocks, ?_⟩
    split at hsaid
    · cases hsaid
    · rename_i joined hne
      rw [← Option.some.inj hsaid, String.toList_ofList]
      exact ⟨rfl, hne⟩
  · rintro ⟨message, blocks, hmessage, hrole, hcontent, htext, hne⟩
    have hblocks := Json.bind_items?_eq_some_iff.2 hcontent
    simp only [Entry.assistantText?, hmessage, hrole, hblocks, Option.bind_eq_bind,
      Option.bind_some, if_true]
    rw [htext] at hne
    split
    · rename_i hnil
      exact absurd hnil hne
    · rw [← htext, String.ofList_toList]
      rfl

theorem says_iff {line : List Char} {text : String} :
    Says line text.toList ↔ said? line = some text := by
  rw [said?, Option.bind_eq_some_iff]
  simp only [assistantText?_eq_some_iff, Says, spells_iff, Entry.joinedText]
  constructor
  · rintro ⟨entry, message, blocks, _, hentry, hmessage, hrole, hcontent, rfl, htext, hne⟩
    exact ⟨entry, hentry, message, blocks, hmessage, hrole, hcontent, htext, hne⟩
  · rintro ⟨entry, hentry, message, blocks, hmessage, hrole, hcontent, htext, hne⟩
    exact ⟨entry, message, blocks, _, hentry, hmessage, hrole, hcontent, rfl, htext, hne⟩

theorem said?_eq_none_iff {line : List Char} : said? line = none ↔ ∀ text, ¬Says line text := by
  rw [Option.eq_none_iff_forall_ne_some]
  constructor
  · intro h text hsays
    rw [← String.toList_ofList (l := text)] at hsays
    exact h _ (says_iff.1 hsays)
  · intro h text hsaid
    exact h _ (says_iff.2 hsaid)

/-! ### Capped texts -/

/-- The response for a text: the text itself if there is no limit or it keeps within the limit,
    else as many of its first characters and three dots. -/
structure IsCapOf (limit : Nat) (text response : List Char) : Prop where
  whole : limit = 0 ∨ text.length ≤ limit → response = text
  cut : 0 < limit → limit < text.length → response = text.take limit ++ ['.', '.', '.']

theorem isCapOf_capAt (limit : Nat) (text : String) :
    IsCapOf limit text.toList (capAt limit text).toList where
  whole h := by
    rw [capAt]
    split
    · rfl
    · rename_i hlimit
      rw [Text.cap, if_pos]
      exact h.resolve_left hlimit
  cut hlimit hlong := by
    have hcut : ¬text.length ≤ limit := Nat.not_le.2 hlong
    rw [capAt, if_neg (Nat.ne_of_gt hlimit), Text.cap, if_neg hcut, String.toList_append,
      String.toList_ofList]
    rfl

/-! ### Growth -/

/-- One more line: what is said in it is the newest text. -/
theorem newestText?_append (content : List Char) {line : List Char} (h : '\n' ∉ line) :
    newestText? (content ++ '\n' :: line) = (said? line).or (newestText? content) := by
  rw [newestText?_eq_findSome?, newestText?_eq_findSome?, entries_append, entries_of_no_feed h,
    List.reverse_append, List.findSome?_append, said?]
  cases Entry.parse? line with
  | none => rfl
  | some entry => simp

/-- A content to which lines are added one after another. -/
def grown (content : List Char) (lines : List (List Char)) : List Char :=
  lines.foldl (fun content line => content ++ '\n' :: line) content

theorem grown_concat (content : List Char) (lines : List (List Char)) (line : List Char) :
    grown content (lines ++ [line]) = grown content lines ++ '\n' :: line := by
  rw [grown, List.foldl_append, List.foldl_cons, List.foldl_nil, ← grown]

/-- The induction is from the end: the last line is asked first. -/
theorem newestText?_grown (content : List Char) {lines : List (List Char)}
    (h : ∀ line ∈ lines, '\n' ∉ line) :
    newestText? (grown content lines) =
      (lines.reverse.findSome? said?).or (newestText? content) := by
  induction lines using List.reverseRecOn with
  | nil => rfl
  | append_singleton lines line ih =>
    have hlines : ∀ line ∈ lines, '\n' ∉ line := fun other hother =>
      h other (List.mem_append_left _ hother)
    have hline : '\n' ∉ line := h line (by simp)
    rw [grown_concat, newestText?_append _ hline, ih hlines, List.reverse_concat,
      List.findSome?_cons]
    cases said? line <;> rfl

/-- What is said in the last of some lines in which anything is said. -/
def SaysLast (lines : List (List Char)) (text : List Char) : Prop :=
  ∃ front line back, lines = front ++ line :: back ∧ Says line text ∧
    ∀ later ∈ back, ∀ other, ¬Says later other

theorem findSome?_of_saysLast {lines : List (List Char)} {text : String}
    (h : SaysLast lines text.toList) : lines.reverse.findSome? said? = some text := by
  obtain ⟨front, line, back, rfl, hsays, hsilent⟩ := h
  have hback : back.reverse.findSome? said? = none := by
    rw [List.findSome?_eq_none_iff]
    intro later hlater
    exact said?_eq_none_iff.2 (hsilent later (List.mem_reverse.1 hlater))
  rw [List.reverse_append, List.reverse_cons, List.append_assoc, List.findSome?_append, hback,
    Option.none_or, List.singleton_append, List.findSome?_cons, says_iff.1 hsays]

theorem exists_latestResponse? {content text : List Char}
    (h : newestText? content = some (String.ofList text)) (maxLength : Nat) :
    ∃ response, latestResponse? content maxLength = some response ∧
      IsCapOf maxLength text response.toList := by
  have hcap := isCapOf_capAt maxLength (String.ofList text)
  rw [String.toList_ofList] at hcap
  refine ⟨capAt maxLength (String.ofList text), ?_, hcap⟩
  rw [latestResponse?, h, Option.map_some]

/-- After one more line the latest response is what is said in the line, capped at the length
    that is asked for; if nothing is said in it, the latest response stays. After any number of
    further lines it is what is said in the last of them that says anything, or it stays. -/
theorem latest_response_is_newest (content : List Char) (maxLength : Nat) :
    (∀ line, '\n' ∉ line →
      (∀ text, Says line text → ∃ response,
        latestResponse? (content ++ '\n' :: line) maxLength = some response ∧
          IsCapOf maxLength text response.toList) ∧
      ((∀ text, ¬Says line text) →
        latestResponse? (content ++ '\n' :: line) maxLength =
          latestResponse? content maxLength)) ∧
    ∀ lines, (∀ line ∈ lines, '\n' ∉ line) →
      (∀ text, SaysLast lines text → ∃ response,
        latestResponse? (grown content lines) maxLength = some response ∧
          IsCapOf maxLength text response.toList) ∧
      ((∀ line ∈ lines, ∀ text, ¬Says line text) →
        latestResponse? (grown content lines) maxLength = latestResponse? content maxLength) := by
  refine ⟨fun line hline => ⟨?_, ?_⟩, fun lines hlines => ⟨?_, ?_⟩⟩
  · intro text hsays
    rw [← String.toList_ofList (l := text)] at hsays
    apply exists_latestResponse?
    rw [newestText?_append content hline, says_iff.1 hsays, Option.some_or]
  · intro hsilent
    rw [latestResponse?, newestText?_append content hline, said?_eq_none_iff.2 hsilent,
      Option.none_or, latestResponse?]
  · intro text hsays
    rw [← String.toList_ofList (l := text)] at hsays
    apply exists_latestResponse?
    rw [newestText?_grown content hlines, findSome?_of_saysLast hsays, Option.some_or]
  · intro hsilent
    have hnone : lines.reverse.findSome? said? = none := by
      rw [List.findSome?_eq_none_iff]
      intro line hline
      exact said?_eq_none_iff.2 (hsilent line (List.mem_reverse.1 hline))
    rw [latestResponse?, newestText?_grown content hlines, hnone, Option.none_or,
      latestResponse?]

/-- An answer in two blocks of text, with a call of a tool between them and blanks around. -/
def spokenLine : List Char :=
  ("\x7b\"message\":\x7b\"role\":\"assistant\",\"content\":[" ++
    "\x7b\"type\":\"text\",\"text\":\" é\"\x7d,\x7b\"type\":\"tool_use\",\"text\":\"no\"\x7d," ++
    "\x7b\"type\":\"text\",\"text\":\"bc\\n\"\x7d]\x7d\x7d\r").toList

/-- Words of the user. -/
def silentLine : List Char :=
  ("\x7b\"message\":\x7b\"role\":\"user\",\"content\":" ++
    "[\x7b\"type\":\"text\",\"text\":\"hm\"\x7d]\x7d\x7d").toList

theorem latest_response_is_newest_spoken :
    '\n' ∉ silentLine ∧ Says spokenLine "ébc".toList ∧ (∀ text, ¬Says silentLine text) ∧
      latestResponse? (spokenLine ++ '\n' :: silentLine) 2 = latestResponse? spokenLine 2 ∧
      ∃ response, latestResponse? (grown silentLine [spokenLine, [], silentLine]) 2 =
        some response ∧ IsCapOf 2 "ébc".toList response.toList := by
  have hspoken : Says spokenLine "ébc".toList := says_iff.2 (by decide +kernel)
  have hsilent : ∀ text, ¬Says silentLine text := said?_eq_none_iff.1 (by decide +kernel)
  have hblank : ∀ text, ¬Says [] text := said?_eq_none_iff.1 rfl
  have hfeed : '\n' ∉ silentLine := by decide +kernel
  have hlines : ∀ line ∈ [spokenLine, [], silentLine], '\n' ∉ line := by decide +kernel
  have hlast : SaysLast [spokenLine, [], silentLine] "ébc".toList := by
    refine ⟨[], spokenLine, [[], silentLine], rfl, hspoken, ?_⟩
    simp [hblank, hsilent]
  refine ⟨hfeed, hspoken, hsilent, ?_, ?_⟩
  · exact ((latest_response_is_newest spokenLine 2).1 silentLine hfeed).2 hsilent
  · exact ((latest_response_is_newest silentLine 2).2 _ hlines).1 _ hlast

end Transcript

end SessionLog
