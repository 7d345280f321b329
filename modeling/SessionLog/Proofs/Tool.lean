/-
  SessionLog/Proofs/Tool.lean
  ===========================
  **How long the line about an output can be.**

  An error is cut after thirty characters, so the line of a failure has 41 at most. The line
  of a success tells numbers, and those are short as long as they are numbers. What was read,
  grepped or globbed is counted in the words of the response, and they are not cut: a line
  grows beyond 41 characters exactly if the count is told by a string, a list or an object
  that is long enough.
-/
import SessionLog.Proofs.Json.Width
import SessionLog.Proofs.Session.Failures

namespace SessionLog

/-! ### Short texts -/

theorem Text.length_cap_le (limit : Nat) (text : String) :
    (Text.cap limit text).length ≤ limit + 3 := by
  rw [cap]
  split
  · exact Nat.le_add_right_of_le ‹_›
  · rw [String.length_append, String.length_ofList]
    exact Nat.add_le_add_right (List.length_take_le _ _) 3

/-- A value that has no parts and is no string. -/
def Json.isPlain : Json → Bool
  | .null => true
  | .bool _ => true
  | .number _ => true
  | _ => false

theorem Json.length_display_le {value : Json} (hplain : value.isPlain = true)
    (hrange : ∀ number, value = .number number → number.InRange) : value.display.length ≤ 27 := by
  cases value with
  | null => decide
  | bool b => cases b <;> decide
  | number number =>
    have htext : (Json.number number).display = String.ofList number.render := by
      change (Json.number number).compact = String.ofList number.render
      rw [compact, render]
    rw [htext, String.length_ofList]
    exact (hrange number rfl).length_render_le
  | string _ | array _ | object _ => cases hplain

namespace ToolKind

/-! ### Counts told by a response -/

/-- The count that a response tells itself. -/
def countTold? (kind : ToolKind) (response : Json) : Option Json :=
  match kind with
  | .read =>
    let file := response.get? "file"
    ((file.bind (Json.get? "numLines")).filter Json.isTruthy).or
      (file.bind (Json.get? "totalLines"))
  | .grep => response.get? "numFiles"
  | .glob => response.get? "numFiles"
  | _ => none

/-- What is counted. -/
def unit : ToolKind → String
  | .read => " lines"
  | .grep => " files matched"
  | .glob => " files"
  | .edit => " lines changed"
  | _ => ""

/-- The sizes that a response can have: as many names as 64 bits count, and a count that is a
    number is one of a document. -/
structure IsSized (kind : ToolKind) (response : Json) : Prop where
  names : ∀ names, (response.get? "filenames").bind Json.items? = some names →
    names.length < UInt64.size
  count : ∀ number, kind.countTold? response = some (.number number) → number.InRange

variable {kind : ToolKind} {response : Json}

theorem linesRead_eq (response : Json) :
    linesRead response = ((read.countTold? response).map Json.display).getD "?" := by
  simp only [linesRead, countTold?]
  generalize ((response.get? "file").bind (Json.get? "numLines")).filter Json.isTruthy = lines
  generalize (response.get? "file").bind (Json.get? "totalLines") = total
  cases lines <;> cases total <;> rfl

theorem filesFound_of_count {count : Json} (h : response.get? "numFiles" = some count) :
    filesFound response = count.display := by
  rw [filesFound, h]

theorem length_filesFound_le (hsized : kind.IsSized response)
    (h : response.get? "numFiles" = none) : (filesFound response).length ≤ 20 := by
  have hnames : (((response.get? "filenames").bind Json.items?).getD []).length < 10 ^ 20 := by
    cases hlisted : (response.get? "filenames").bind Json.items? with
    | none => decide
    | some names => exact Nat.lt_of_lt_of_le (hsized.names names hlisted) (by decide)
  rw [filesFound, h, String.length_ofList]
  exact Text.length_digits_le (by decide) hnames

theorem length_patchSummary_le (response : Json) : (patchSummary response).length ≤ 34 := by
  rw [patchSummary.eq_def]
  split
  · decide
  · decide
  · rename_i hunks _ _
    have hlines : (patchLines hunks).toNat < 10 ^ 20 :=
      Nat.lt_of_lt_of_le (patchLines hunks).toNat_lt_size (by decide)
    rw [String.length_append, String.length_ofList]
    exact Nat.add_le_add_right (Text.length_digits_le (by decide) hlines) 14

theorem members?_isSome_of_get? {key : String} {value : Json}
    (h : response.get? key = some value) : response.members?.isSome = true := by
  obtain ⟨members, hmembers, -⟩ := Option.bind_eq_some_iff.1 h
  rw [hmembers]
  rfl

/-- A count is told as the response has it. -/
theorem summarizeSuccess_of_count {count : Json} (h : kind.countTold? response = some count) :
    kind.summarizeSuccess response = count.display ++ kind.unit := by
  cases kind with
  | read =>
    have hobject : response.members?.isSome = true := by
      cases hfile : response.get? "file" with
      | none => simp [countTold?, hfile] at h
      | some file => exact members?_isSome_of_get? hfile
    simp [summarizeSuccess, hobject, linesRead_eq, h, unit]
  | grep | glob =>
    have hobject := members?_isSome_of_get? h
    simp [summarizeSuccess, hobject, filesFound_of_count h, unit]
  | edit | write | bash | skill | task | notebookEdit | askUserQuestion | other => cases h

theorem length_summarizeSuccess_le (hsized : kind.IsSized response)
    (h : kind.countTold? response = none) : (kind.summarizeSuccess response).length ≤ 34 := by
  cases kind with
  | read =>
    simp only [summarizeSuccess, linesRead_eq, h]
    split <;> decide
  | grep | glob =>
    have hfound := length_filesFound_le hsized h
    simp only [summarizeSuccess]
    split
    · rw [String.length_append]
      exact Nat.le_trans (Nat.add_le_add_right hfound _) (by decide)
    · decide
  | edit => exact length_patchSummary_le response
  | write | bash | skill | task | notebookEdit | askUserQuestion | other => exact Nat.zero_le 34

/-! ### The cap of 41 characters -/

theorem length_unit_le (kind : ToolKind) : kind.unit.length ≤ 14 := by
  cases kind <;> decide

theorem length_failure_le {error : Json} (h : error? response = some error) :
    (kind.summarizeOutput (some response)).length ≤ 41 := by
  rw [summarizeOutput_of_error h, String.length_append]
  exact Nat.add_le_add_left (Text.length_cap_le 30 error.display) 8

/-- A line about an output has more than 41 characters exactly if it is that of no failure and
    tells a count that is no number, and that is too long by itself. -/
theorem summary_exceeds_cap_iff {response : Option Json}
    (hsized : ∀ told, response = some told → kind.IsSized told) :
    41 < (kind.summarizeOutput response).length ↔
      ∃ told count, response = some told ∧ error? told = none ∧
        kind.countTold? told = some count ∧ count.isPlain = false ∧
        kind.summarizeOutput response = count.display ++ kind.unit ∧
        41 < count.display.length + kind.unit.length := by
  constructor
  · intro hlong
    cases response with
    | none => exact absurd hlong (Nat.not_lt_zero 41)
    | some told =>
      have hsized := hsized told rfl
      cases herror : error? told with
      | some error => exact absurd hlong (Nat.not_lt.2 (length_failure_le herror))
      | none =>
        have hsummary : kind.summarizeOutput (some told) = "" ∨
            kind.summarizeOutput (some told) = kind.summarizeSuccess told :=
          summarizeOutput_of_no_error herror
        rcases hsummary with hnothing | hsuccess
        · rw [hnothing] at hlong
          exact absurd hlong (by decide)
        · cases hcount : kind.countTold? told with
          | none =>
            rw [hsuccess] at hlong
            have hshort := length_summarizeSuccess_le hsized hcount
            omega
          | some count =>
            rw [summarizeSuccess_of_count hcount] at hsuccess
            rw [hsuccess, String.length_append] at hlong
            refine ⟨told, count, rfl, herror, hcount, ?_, hsuccess, hlong⟩
            rw [← Bool.not_eq_true]
            intro hplain
            have hdisplay := Json.length_display_le hplain fun number hnumber =>
              hsized.count number (hnumber ▸ hcount)
            have hunit := length_unit_le kind
            omega
  · rintro ⟨told, count, -, -, -, -, htext, hlong⟩
    rw [htext, String.length_append]
    exact hlong

/-- A count of lines that is a string of 37 characters. -/
def countInWords : Json :=
  .object [("file", .object [("numLines", .string "one hundred and twenty-three thousand")])]

theorem summary_exceeds_cap_countInWords :
    read.IsSized countInWords ∧ 41 < (read.summarizeOutput (some countInWords)).length := by
  have hnames : (countInWords.get? "filenames").bind Json.items? = none := rfl
  have hcount : read.countTold? countInWords =
      some (.string "one hundred and twenty-three thousand") := rfl
  have hsized : read.IsSized countInWords := {
    names := fun names h => absurd (hnames.symm.trans h) (Option.some_ne_none names).symm
    count := fun number h => Json.noConfusion (Option.some.inj (hcount.symm.trans h)) }
  have htold : ∀ told, some countInWords = some told → read.IsSized told :=
    fun told h => Option.some.inj h ▸ hsized
  refine ⟨hsized, (summary_exceeds_cap_iff htold).2 ?_⟩
  exact ⟨countInWords, _, rfl, rfl, hcount, rfl, rfl, by decide⟩

/-- The cap does not hold of every response, though its hunks count as many lines as 64 bits
    do. -/
theorem not_capped_countInWords :
    ¬∀ (kind : ToolKind) (response : Json),
      (∀ hunks, (response.get? "structuredPatch").bind Json.items? = some hunks →
        (hunks.map fun hunk => (hunkLines hunk).toNat).foldl Nat.add 0 < UInt64.size) →
      (kind.summarizeOutput (some response)).length ≤ 41 := by
  intro hcapped
  have hpatch : (countInWords.get? "structuredPatch").bind Json.items? = none := rfl
  have hshort := hcapped .read countInWords fun hunks h =>
    absurd (hpatch.symm.trans h) (Option.some_ne_none hunks).symm
  have htext : read.summarizeOutput (some countInWords) =
      "one hundred and twenty-three thousand lines" := rfl
  rw [htext] at hshort
  exact absurd hshort (by decide)

end ToolKind

end SessionLog
