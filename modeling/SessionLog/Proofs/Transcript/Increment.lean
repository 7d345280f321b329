/-
  SessionLog/Proofs/Transcript/Increment.lean
  ===========================================
  **Increments as sums that can be taken in parts.**

  An increment is a fold over the entries after a watermark. It is the merge of what
  its parts add up to: tokens are added, of models and contexts the later one counts,
  and the later watermark stands. Entries of a transcript that grows by whole lines
  are the earlier entries and those of the lines that were added.
-/
import SessionLog.Proofs.Text.Utf8
import SessionLog.Proofs.Tokens.Saturation
import SessionLog.Proofs.Transcript.Lines
import SessionLog.Transcript.Octets

namespace SessionLog.Transcript

/-! ### Entries of octets -/

def entriesIn (octets : List UInt8) : List Entry := entries (Utf8.decodeLenient octets)

/-- Whole lines only: nothing, or octets that end in a line feed. -/
def IsWhole (octets : List UInt8) : Prop := octets = [] ∨ octets.getLast? = some 0x0A

instance (octets : List UInt8) : Decidable (IsWhole octets) :=
  inferInstanceAs (Decidable (_ ∨ _))

/-- The entries around a line feed are those in front of it and those behind it. -/
theorem entriesIn_append_feed (front back : List UInt8) :
    entriesIn (front ++ 0x0A :: back) = entriesIn front ++ entriesIn back := by
  have hfeed : (0x0A : UInt8).toNat ≤ 0x7F := by decide
  rw [entriesIn, Utf8.decodeLenient_append_cons _ _ hfeed]
  exact entries_append _ _

/-- Behind whole lines the entries of more octets are added to those that are there. -/
theorem entriesIn_append {octets : List UInt8} (h : IsWhole octets) (more : List UInt8) :
    entriesIn (octets ++ more) = entriesIn octets ++ entriesIn more := by
  rcases h with rfl | hlast
  · rfl
  · obtain ⟨front, rfl⟩ := List.getLast?_eq_some_iff.1 hlast
    have hnil : entriesIn [] = [] := rfl
    rw [List.append_assoc, List.singleton_append, entriesIn_append_feed, entriesIn_append_feed,
      hnil, List.append_nil]

/-! ### Merging -/

namespace Increment

def merge (earlier later : Increment) : Increment where
  counts :=
    ⟨earlier.counts.tokens.add later.counts.tokens,
      if 0 < later.counts.contextTokens then later.counts.contextTokens
      else earlier.counts.contextTokens⟩
  model := later.model.or earlier.model
  watermark := later.watermark

theorem merge_assoc (a b c : Increment) : (a.merge b).merge c = a.merge (b.merge c) := by
  simp only [merge, Tokens.add_assoc, Option.or_assoc, mk.injEq, Counts.mk.injEq, true_and,
    and_true]
  by_cases h : 0 < c.counts.contextTokens
  · simp [h]
  · simp [h]

@[simp] theorem merge_start (a : Increment) : a.merge (start a.watermark) = a := by
  have h : ¬(0 : UInt64) < 0 := by decide
  simp [merge, start, Counts.zero, h]

theorem contextTokens_pos {entry : Entry} {usage : Usage} (h : counted? entry = some usage) :
    0 < usage.contextTokens := by
  have hinput := (Option.filter_eq_some_iff.1 h).2
  exact Tokens.addCount_pos (of_decide_eq_true hinput) _

theorem step_eq_merge (sum : Increment) (entry : Entry) :
    sum.step entry = sum.merge ((start sum.watermark).step entry) := by
  have hcounts : (sum.step entry).counts =
      (sum.merge ((start sum.watermark).step entry)).counts := by
    rcases Option.eq_none_or_eq_some (counted? entry) with h | ⟨usage, h⟩
    · have hzero : ¬(0 : UInt64) < 0 := by decide
      simp [step, merge, start, h, Counts.add, Counts.zero, hzero]
    · simp [step, merge, start, h, Counts.add, Counts.zero, contextTokens_pos h]
  have hmodel : (sum.step entry).model =
      (sum.merge ((start sum.watermark).step entry)).model := by
    simp [step, merge, start]
  calc
    sum.step entry =
        ⟨(sum.step entry).counts, (sum.step entry).model, (sum.step entry).watermark⟩ := rfl
    _ = sum.merge ((start sum.watermark).step entry) := by
        rw [hcounts, hmodel]
        rfl

theorem foldl_step_eq_merge (found : List Entry) (sum : Increment) :
    found.foldl step sum = sum.merge (found.foldl step (start sum.watermark)) := by
  induction found generalizing sum with
  | nil => exact (merge_start sum).symm
  | cons entry found ih =>
    rw [List.foldl_cons, List.foldl_cons, ih (sum.step entry),
      ih ((start sum.watermark).step entry), step_eq_merge sum entry, merge_assoc]
    rfl

/-! ### Watermarks -/

theorem isNew_iff {watermark : String} {entry : Entry} :
    isNew watermark entry = true ↔ watermark < entry.stampText := by
  have hempty : ∀ text : String, ¬text < "" := fun text h => List.not_lt_nil _ h
  have hpos : ∀ text : String, text ≠ "" → "" < text := by
    intro text htext
    rcases String.le_total text "" with hle | hle
    · have := String.le_antisymm hle (hempty text)
      exact absurd this htext
    · exact Decidable.byContradiction fun hnot =>
        htext (String.le_antisymm hnot hle)
  simp only [isNew, Bool.and_eq_true, Bool.or_eq_true, decide_eq_true_eq]
  constructor
  · rintro ⟨hne, rfl | hlt⟩
    · exact hpos _ hne
    · exact hlt
  · intro hlt
    refine ⟨fun heq => ?_, Or.inr hlt⟩
    rw [heq] at hlt
    exact hempty _ hlt

/-- A watermark moves to the newest stamp: nothing that was taken in is new after it, and
    nothing that was known before becomes new. -/
theorem not_isNew_foldl_step (found : List Entry) (sum : Increment) {entry : Entry}
    (h : isNew sum.watermark entry = false ∨ entry ∈ found) :
    isNew (found.foldl step sum).watermark entry = false := by
  induction found generalizing sum with
  | nil => exact h.resolve_right List.not_mem_nil
  | cons next found ih =>
    apply ih
    have hstep : ∀ text : String, ¬sum.watermark < text ∨ text = next.stampText →
        ¬(sum.step next).watermark < text := by
      intro text htext
      simp only [step]
      split
      · rename_i hlt
        rcases htext with hnot | rfl
        · exact fun hless => hnot (String.lt_trans hlt hless)
        · exact String.lt_irrefl _
      · rename_i hnext
        rcases htext with hnot | rfl
        · exact hnot
        · exact hnext
    rw [← Bool.not_eq_true, isNew_iff] at h ⊢
    rcases h with hnot | hmem
    · exact Or.inl (hstep _ (Or.inl hnot))
    · rcases List.mem_cons.1 hmem with rfl | hmem
      · exact Or.inl (hstep _ (Or.inr rfl))
      · exact Or.inr hmem

theorem watermark_foldl_step (found : List Entry) (sum : Increment) :
    (found.foldl step sum).watermark = sum.watermark ∨
      ∃ entry ∈ found, (found.foldl step sum).watermark = entry.stampText := by
  induction found generalizing sum with
  | nil => exact Or.inl rfl
  | cons next found ih =>
    rw [List.foldl_cons]
    rcases ih (sum.step next) with hsame | ⟨entry, hmem, heq⟩
    · rw [hsame]
      simp only [step]
      split
      · exact Or.inr ⟨next, List.mem_cons_self, rfl⟩
      · exact Or.inl rfl
    · exact Or.inr ⟨entry, List.mem_cons_of_mem _ hmem, heq⟩

theorem watermark_le_foldl_step (found : List Entry) (sum : Increment) :
    sum.watermark ≤ (found.foldl step sum).watermark := by
  induction found generalizing sum with
  | nil => exact String.le_refl _
  | cons next found ih =>
    refine String.le_trans ?_ (ih (sum.step next))
    simp only [step]
    split
    · rename_i hlt
      exact String.lt_asymm hlt
    · exact String.le_refl _

end Increment

theorem watermark_le_incrementIn (transcript : Option (List UInt8)) (watermark : String) :
    watermark ≤ (incrementIn transcript watermark).watermark := by
  cases transcript with
  | none => exact String.le_refl _
  | some octets => exact Increment.watermark_le_foldl_step _ (.start watermark)

end SessionLog.Transcript
