/-
  SessionLog/Proofs/Transcript/Noise.lean
  =======================================
  **Noise in a transcript changes no reading of it.**

  Every reading of a transcript is one of its entries, and a line that is no entry is passed
  over. So such lines may be put among the others, or be taken away, wherever they stand and
  however many they are. Nor does it matter whether lines end in a line feed alone or in a
  carriage return and a line feed, or whether the content is trimmed before it is cut into
  lines: blanks at the ends of a line are not seen.
-/
import Mathlib.Logic.Relation
import SessionLog.Proofs.Text.Blank
import SessionLog.Proofs.Text.Split
import SessionLog.Proofs.Transcript.Totals

namespace SessionLog

/-! ### Records that cannot be read -/

namespace Fields

variable {names : List String} {members : List (List Piece × Raw)} {fields : Fields Raw}
  {key : List Piece} {name : String} {value : Raw}

/-- A member of a known name is found among the fields. -/
theorem lookup_of_ofMembers? (h : ofMembers? names members = some fields)
    (hmem : (key, value) ∈ members) (hkey : Piece.string? key = some name)
    (hname : name ∈ names) : fields.lookup name = some value := by
  induction members generalizing fields with
  | nil => cases hmem
  | cons member rest ih =>
    obtain ⟨other, first⟩ := member
    obtain ⟨text, htext, hspelled⟩ := Option.bind_eq_some_iff.1 h
    obtain ⟨found, hfound, hfields⟩ := Option.bind_eq_some_iff.1 hspelled
    simp only [Option.pure_def] at hfields
    rcases List.mem_cons.1 hmem with heq | hrest
    · obtain ⟨rfl, rfl⟩ := Prod.mk.inj heq
      obtain rfl := Option.some.inj (htext.symm.trans hkey)
      rw [if_pos (List.contains_iff_mem.2 hname)] at hfields
      split at hfields
      · cases hfields
      · rw [← Option.some.inj hfields, List.lookup_cons_self]
    · have hlookup := ih hfound hrest
      split at hfields
      · split at hfields
        · cases hfields
        · rename_i hnew
          have hne : name ≠ text := by
            rintro rfl
            simp [hlookup] at hnew
          rw [← Option.some.inj hfields, List.lookup_cons, beq_eq_false_iff_ne.2 hne]
          exact hlookup
      · rw [← Option.some.inj hfields]
        exact hlookup

/-- A known name that comes twice makes a record unreadable. -/
theorem ofMembers?_of_twice {front middle back : List (List Piece × Raw)}
    {key' : List Piece} {value' : Raw} (hkey : Piece.string? key = some name)
    (hkey' : Piece.string? key' = some name) (hname : name ∈ names) :
    ofMembers? names (front ++ (key, value) :: (middle ++ (key', value') :: back)) = none := by
  induction front with
  | nil =>
    rw [List.nil_append, ofMembers?, hkey]
    cases hrest : ofMembers? names (middle ++ (key', value') :: back) with
    | none => rfl
    | some found =>
      have hmem : (key', value') ∈ middle ++ (key', value') :: back := by simp
      have hlookup := lookup_of_ofMembers? hrest hmem hkey' hname
      simp [hname, hlookup]
  | cons member front ih =>
    rw [List.cons_append, ofMembers?, ih]
    cases Piece.string? member.1 <;> rfl

end Fields

theorem Raw.nullable?_eq_none {β : Type} {read : Raw → Option β} {value : Raw}
    (hnull : value ≠ .null) (h : read value = none) : nullable? read value = none := by
  rw [nullable?.eq_def]
  split
  · exact absurd rfl hnull
  · rw [h]
    rfl

namespace Transcript

namespace Entry

/-- The fields of an entry, by their names. -/
def fieldNames : List String := ["timestamp", "message", "usage"]

/-- A value that a field of an entry cannot have. -/
inductive Misfit : String → Raw → Prop
  | stamp {value : Raw} : value ≠ .null → value.string? = none → Misfit "timestamp" value
  | message {value : Raw} : value ≠ .null → Message.ofRaw? value = none → Misfit "message" value
  | usage {value : Raw} : value ≠ .null → Usage.ofRaw? value = none → Misfit "usage" value

/-- What makes a line no entry: there is nothing in it, it is not written in JSON, it is no
    record, a field comes twice, or a field has a value that it cannot have. -/
inductive IsFlawed (line : List Char) : Prop
  | blank : (∀ c ∈ line, Text.isBlank c = true) → IsFlawed line
  | malformed : Raw.parse? (Text.trim line) = none → IsFlawed line
  | scalar {raw : Raw} : Raw.parse? (Text.trim line) = some raw →
      (∀ items, raw ≠ .array items) → (∀ members, raw ≠ .object members) → IsFlawed line
  | twice {front middle back : List (List Piece × Raw)} {key key' : List Piece}
      {value value' : Raw} {name : String} :
      Raw.parse? (Text.trim line) =
        some (.object (front ++ (key, value) :: (middle ++ (key', value') :: back))) →
      Piece.string? key = some name → Piece.string? key' = some name → name ∈ fieldNames →
      IsFlawed line
  | misfit {members : List (List Piece × Raw)} {key : List Piece} {value : Raw}
      {name : String} : Raw.parse? (Text.trim line) = some (.object members) →
      (key, value) ∈ members → Piece.string? key = some name → Misfit name value →
      IsFlawed line

theorem ofRaw?_of_fields {raw : Raw} (h : Fields.ofRaw? fieldNames raw = none) :
    ofRaw? raw = none := by
  rw [fieldNames] at h
  rw [ofRaw?, h]
  rfl

theorem ofRaw?_of_misfit {members : List (List Piece × Raw)} {key : List Piece} {value : Raw}
    {name : String} (hmem : (key, value) ∈ members) (hkey : Piece.string? key = some name)
    (h : Misfit name value) : ofRaw? (.object members) = none := by
  cases hfields : Fields.ofRaw? fieldNames (.object members) with
  | none => exact ofRaw?_of_fields hfields
  | some fields =>
    have hname : name ∈ fieldNames := by cases h <;> decide
    have hlookup := Fields.lookup_of_ofMembers? hfields hmem hkey hname
    rw [Option.eq_none_iff_forall_ne_some]
    intro entry hentry
    obtain ⟨found, hfound, hentry⟩ := Option.bind_eq_some_iff.1 hentry
    obtain rfl := Option.some.inj (hfields.symm.trans hfound)
    obtain ⟨stamp, hstamp, hentry⟩ := Option.bind_eq_some_iff.1 hentry
    obtain ⟨message, hmessage, hentry⟩ := Option.bind_eq_some_iff.1 hentry
    obtain ⟨usage, husage, -⟩ := Option.bind_eq_some_iff.1 hentry
    simp only [Fields.withDefault?] at hstamp hmessage husage
    cases h with
    | stamp hnull hread =>
      rw [hlookup] at hstamp
      cases hstamp.symm.trans (Raw.nullable?_eq_none hnull hread)
    | message hnull hread =>
      rw [hlookup] at hmessage
      cases hmessage.symm.trans (Raw.nullable?_eq_none hnull hread)
    | usage hnull hread =>
      rw [hlookup] at husage
      cases husage.symm.trans (Raw.nullable?_eq_none hnull hread)

theorem parse?_of_isFlawed {line : List Char} (h : IsFlawed line) : parse? line = none := by
  cases h with
  | blank hblank => exact parse?_of_isAllBlank (Text.isAllBlank_iff.2 hblank)
  | malformed hraw => rw [parse?, hraw, Option.bind_none]
  | @scalar raw hraw harray hobject =>
    rw [parse?, hraw, Option.bind_some]
    apply ofRaw?_of_fields
    cases raw with
    | array items => exact absurd rfl (harray items)
    | object members => exact absurd rfl (hobject members)
    | _ => rfl
  | twice hraw hkey hkey' hname =>
    rw [parse?, hraw, Option.bind_some]
    exact ofRaw?_of_fields (Fields.ofMembers?_of_twice hkey hkey' hname)
  | misfit hraw hmem hkey hmisfit =>
    rw [parse?, hraw, Option.bind_some]
    exact ofRaw?_of_misfit hmem hkey hmisfit

end Entry

/-! ### Noise -/

/-- Lines, and the same lines with noise among them: lines that are no entries, wherever and
    as many as there may be. -/
inductive Noisy : List (List Char) → List (List Char) → Prop
  | nil : Noisy [] []
  | line {clean noisy : List (List Char)} (line : List Char) : Noisy clean noisy →
      Noisy (line :: clean) (line :: noisy)
  | noise {clean noisy : List (List Char)} {line : List Char} : Entry.parse? line = none →
      Noisy clean noisy → Noisy clean (line :: noisy)

theorem Noisy.filterMap_parse? {clean noisy : List (List Char)} (h : Noisy clean noisy) :
    noisy.filterMap Entry.parse? = clean.filterMap Entry.parse? := by
  induction h with
  | nil => rfl
  | line line _ ih => rw [List.filterMap_cons, List.filterMap_cons, ih]
  | noise hline _ ih => rw [List.filterMap_cons_none hline, ih]

theorem Noisy.subset {clean noisy : List (List Char)} (h : Noisy clean noisy) :
    clean ⊆ noisy := by
  induction h with
  | nil => exact List.Subset.refl _
  | line line _ ih => exact List.cons_subset_cons line ih
  | noise _ _ ih => exact List.subset_cons_of_subset _ ih

theorem entries_ofLines {found : List (List Char)} (h : ∀ line ∈ found, '\n' ∉ line) :
    entries (Text.ofLines found) = found.filterMap Entry.parse? := by
  by_cases hne : found = []
  · rw [hne]
    rfl
  · rw [entries_eq_filterMap, Text.lines_ofLines hne h]

/-- A carriage return in front of every line feed. -/
def withReturns (content : List Char) : List Char :=
  content.flatMap fun c => if c = '\n' then ['\r', '\n'] else [c]

theorem withReturns_of_no_feed {line : List Char} (h : '\n' ∉ line) : withReturns line = line := by
  induction line with
  | nil => rfl
  | cons c line ih =>
    rw [List.mem_cons, not_or] at h
    rw [withReturns, List.flatMap_cons, if_neg (Ne.symm h.1), ← withReturns, ih h.2]
    rfl

theorem withReturns_append (line rest : List Char) (h : '\n' ∉ line) :
    withReturns (line ++ '\n' :: rest) = (line ++ ['\r']) ++ '\n' :: withReturns rest := by
  rw [withReturns, List.flatMap_append, ← withReturns, withReturns_of_no_feed h]
  simp [withReturns]

theorem entries_withReturns (content : List Char) :
    entries (withReturns content) = entries content := by
  induction content using Text.induction_lines with
  | last line h => rw [withReturns_of_no_feed h]
  | more line rest h ih =>
    rw [withReturns_append line rest h, entries_append, entries_append, ih,
      entries_concat_blank (by decide)]

/-! ### Readings -/

/-- One content and another that is made of it: noise is put among its lines, a carriage return
    is put in front of every line feed, or it is trimmed. -/
inductive Retouches : List Char → List Char → Prop
  | noise {clean noisy : List (List Char)} : Noisy clean noisy → (∀ line ∈ noisy, '\n' ∉ line) →
      Retouches (Text.ofLines clean) (Text.ofLines noisy)
  | returns (content : List Char) : Retouches content (withReturns content)
  | trim (content : List Char) : Retouches content (Text.trim content)

theorem Retouches.entries_eq {content other : List Char} (h : Retouches content other) :
    entries other = entries content := by
  cases h with
  | noise hnoisy hlines =>
    rw [entries_ofLines hlines, entries_ofLines fun line hline => hlines line (hnoisy.subset hline),
      hnoisy.filterMap_parse?]
  | returns => exact entries_withReturns content
  | trim => exact entries_trim content

theorem entries_eq_of_eqvGen {content other : List Char}
    (h : Relation.EqvGen Retouches content other) : entries other = entries content := by
  induction h with
  | rel _ _ h => exact h.entries_eq
  | refl => rfl
  | symm _ _ _ ih => exact ih.symm
  | trans _ _ _ _ _ ih ih' => exact ih'.trans ih

/-- A line that is blank, malformed or no record, or has a field twice or of a wrong type, is
    noise. When noise is put among the lines of a transcript or taken away, when line feeds
    get or lose carriage returns, or when the content is trimmed, and however often any of
    this is done, the increment since any watermark, the recount from any start and the latest
    response stay what they are. -/
theorem noise_changes_no_reading :
    (∀ line, Entry.IsFlawed line → Entry.parse? line = none) ∧
    ∀ content other, Relation.EqvGen Retouches content other →
      (∀ watermark, increment other watermark = increment content watermark) ∧
        (∀ start offset, recount? other start offset = recount? content start offset) ∧
        ∀ maxLength, latestResponse? other maxLength = latestResponse? content maxLength := by
  refine ⟨fun line => Entry.parse?_of_isFlawed, ?_⟩
  intro content other h
  have hentries := entries_eq_of_eqvGen h
  refine ⟨?_, ?_, ?_⟩
  · intro watermark
    rw [increment, increment, hentries]
  · intro start offset
    rw [recount?, recount?, hentries]
  · intro maxLength
    rw [latestResponse?, latestResponse?, newestText?_eq_findSome?, newestText?_eq_findSome?,
      hentries]

/-- An answer of the assistant, with usage. -/
def firstAnswer : List Char :=
  ("\x7b\"timestamp\":\"2026-01-20T10\",\"usage\":\x7b\"input_tokens\":5\x7d,\"message\":" ++
    "\x7b\"role\":\"assistant\",\"content\":" ++
    "[\x7b\"type\":\"text\",\"text\":\"ok\"\x7d]\x7d\x7d").toList

/-- Usage without a message. -/
def secondAnswer : List Char :=
  "\x7b\"timestamp\":\"2026-01-20T11\",\"usage\":\x7b\"input_tokens\":7\x7d\x7d".toList

/-- A line that is broken off. -/
def brokenLine : List Char := "\x7b\"usage\":".toList

/-- The answers with a broken line, a field that comes twice, a stamp that is a number and a
    blank line among them. -/
def noisyAnswers : List (List Char) :=
  [brokenLine, firstAnswer, "\x7b\"usage\":null,\"usage\":null\x7d".toList,
    "\x7b\"timestamp\":1\x7d".toList, secondAnswer, [' ']]

theorem noise_changes_no_reading_answers :
    Entry.IsFlawed brokenLine ∧ Entry.parse? brokenLine = none ∧
      Relation.EqvGen Retouches (Text.ofLines [firstAnswer, secondAnswer])
        (withReturns (Text.ofLines noisyAnswers)) ∧
      (increment (withReturns (Text.ofLines noisyAnswers)) "2026").counts.tokens =
        ⟨12, 0, 0, 0⟩ ∧
      latestResponse? (withReturns (Text.ofLines noisyAnswers)) 1 = some "o..." := by
  have hbroken : Entry.IsFlawed brokenLine := .malformed (by decide +kernel)
  have hnone := noise_changes_no_reading.1 brokenLine hbroken
  have hnoisy : Noisy [firstAnswer, secondAnswer] noisyAnswers :=
    .noise hnone <| .line _ <| .noise (by decide +kernel) <| .noise (by decide +kernel) <|
      .line _ <| .noise (by decide +kernel) .nil
  have hlines : ∀ line ∈ noisyAnswers, '\n' ∉ line := by decide +kernel
  have hretouched : Relation.EqvGen Retouches (Text.ofLines [firstAnswer, secondAnswer])
      (withReturns (Text.ofLines noisyAnswers)) :=
    .trans _ _ _ (.rel _ _ (.noise hnoisy hlines)) (.rel _ _ (.returns _))
  obtain ⟨hincrement, -, hlatest⟩ := noise_changes_no_reading.2 _ _ hretouched
  refine ⟨hbroken, hnone, hretouched, ?_, ?_⟩
  · rw [hincrement]
    decide +kernel
  · rw [hlatest]
    decide +kernel

end Transcript

end SessionLog
