/-
  SessionLog/Proofs/Transcript/Totals.lean
  ========================================
  **What the counts of a transcript come to.**

  A scan adds up usage with saturation, entry by entry. Its totals are the exact sums of the
  usages that are let through, cut to the greatest count once: where on the way a sum was cut
  does not show, and neither does the order. The last usage alone gives the context.

  For an increment the usages let through are told by the entries' own fields, and so are its
  model and its watermark.
-/
import Mathlib.Algebra.BigOperators.Group.List.Basic
import Mathlib.Algebra.GroupWithZero.Nat
import Mathlib.Algebra.Order.BigOperators.Group.List
import Mathlib.Algebra.Order.Group.Nat
import Mathlib.Data.List.Induction
import SessionLog.Proofs.Text.Blank
import SessionLog.Proofs.Text.Utf8.Order
import SessionLog.Proofs.Transcript.Increment

namespace SessionLog.Transcript

/-! ### Exact totals -/

/-- The categories of tokens, each with the count that usage tells of it. -/
def categories : List ((Tokens → UInt64) × (Usage → Option UInt64)) :=
  [(Tokens.input, Usage.input), (Tokens.output, Usage.output),
    (Tokens.cacheRead, Usage.cacheRead), (Tokens.cacheCreation, Usage.cacheCreation)]

def countIn (category : (Tokens → UInt64) × (Usage → Option UInt64)) (usage : Usage) : Nat :=
  ((category.2 usage).getD 0).toNat

/-- In every category there is the exact sum of what the usages tell, or the greatest count
    if the sum is more. -/
def IsTotalOf (total : Tokens) (usages : List Usage) : Prop :=
  ∀ category ∈ categories,
    (category.1 total).toNat = min Tokens.maxCount (usages.map (countIn category)).sum

theorem mem_categories_add {category : (Tokens → UInt64) × (Usage → Option UInt64)}
    (h : category ∈ categories) (total : Tokens) (usage : Usage) :
    category.1 (total.add usage.tokens) =
      Tokens.addCount (category.1 total) ((category.2 usage).getD 0) := by
  simp only [categories, List.mem_cons, List.not_mem_nil, or_false] at h
  rcases h with rfl | rfl | rfl | rfl <;> rfl

theorem isTotalOf_zero : IsTotalOf .zero [] := by
  rw [IsTotalOf]
  decide

theorem IsTotalOf.concat {total : Tokens} {usages : List Usage} (h : IsTotalOf total usages)
    (usage : Usage) : IsTotalOf (total.add usage.tokens) (usages ++ [usage]) := by
  intro category hcategory
  have hsum := h category hcategory
  rw [mem_categories_add hcategory, Tokens.toNat_addCount, hsum, List.map_append,
    List.sum_append, List.map_singleton, List.sum_singleton, countIn]
  omega

theorem Tokens.le_iff_categories {a b : Tokens} :
    a ≤ b ↔ ∀ category ∈ categories, (category.1 a).toNat ≤ (category.1 b).toNat := by
  simp only [categories, List.forall_mem_cons, List.not_mem_nil, false_implies, implies_true,
    and_true, ← UInt64.le_iff_toNat_le]
  exact Iff.rfl

theorem Tokens.eq_iff_categories {a b : Tokens} :
    a = b ↔ ∀ category ∈ categories, (category.1 a).toNat = (category.1 b).toNat := by
  simp only [categories, List.forall_mem_cons, List.not_mem_nil, false_implies, implies_true,
    and_true, UInt64.toNat_inj]
  cases a
  cases b
  simp only [Tokens.mk.injEq]

/-- The order of the usages does not show in a total. -/
theorem IsTotalOf.eq_of_perm {total total' : Tokens} {usages usages' : List Usage}
    (h : IsTotalOf total usages) (h' : IsTotalOf total' usages') (hperm : usages.Perm usages') :
    total = total' := by
  rw [Tokens.eq_iff_categories]
  intro category hcategory
  rw [h category hcategory, h' category hcategory, (hperm.map _).sum_eq]

/-- With fewer usages there is no greater total. -/
theorem IsTotalOf.le_of_sublist {total total' : Tokens} {usages usages' : List Usage}
    (h : IsTotalOf total usages) (h' : IsTotalOf total' usages')
    (hsub : usages.Sublist usages') : total ≤ total' := by
  rw [Tokens.le_iff_categories]
  intro category hcategory
  have hsum := (hsub.map (countIn category)).sum_le_sum fun _ _ => Nat.zero_le _
  rw [h category hcategory, h' category hcategory]
  omega

/-! ### Counts as folds over usages -/

namespace Counts

def ofUsages (usages : List Usage) : Counts :=
  usages.foldl (fun counts usage => counts.add (some usage)) .zero

theorem ofUsages_concat (usages : List Usage) (usage : Usage) :
    ofUsages (usages ++ [usage]) =
      ⟨(ofUsages usages).tokens.add usage.tokens, usage.contextTokens⟩ := by
  rw [ofUsages, List.foldl_concat]
  rfl

/-- The induction is from the end: the last usage is added last and gives the context. -/
theorem isTotalOf_ofUsages (usages : List Usage) : IsTotalOf (ofUsages usages).tokens usages := by
  induction usages using List.reverseRecOn with
  | nil => exact isTotalOf_zero
  | append_singleton usages usage ih =>
    rw [ofUsages_concat]
    exact ih.concat usage

theorem contextTokens_ofUsages (usages : List Usage) :
    (ofUsages usages).contextTokens = (usages.getLast?.map Usage.contextTokens).getD 0 := by
  induction usages using List.reverseRecOn with
  | nil => rfl
  | append_singleton usages usage _ =>
    rw [ofUsages_concat, List.getLast?_concat]
    rfl

/-- Entries without usage add nothing. -/
theorem foldl_add_eq (used : Entry → Option Usage) (found : List Entry) :
    found.foldl (fun counts entry => counts.add (used entry)) .zero =
      ofUsages (found.filterMap used) := by
  rw [ofUsages]
  generalize zero = counts
  induction found generalizing counts with
  | nil => rfl
  | cons entry found ih =>
    rw [List.foldl_cons, ih]
    cases hused : used entry with
    | none => rw [List.filterMap_cons_none hused, add]
    | some usage => rw [List.filterMap_cons_some hused, List.foldl_cons]

end Counts

theorem Increment.counts_foldl_step (found : List Entry) (watermark : String) :
    (found.foldl step (start watermark)).counts = .ofUsages (found.filterMap counted?) := by
  rw [← Counts.foldl_add_eq]
  exact (List.foldl_hom Increment.counts fun _ _ => rfl).symm

theorem Recount.counts_foldl_step (found : List Entry) :
    (found.foldl step start).counts = .ofUsages (found.filterMap Entry.usage?) := by
  rw [← Counts.foldl_add_eq]
  exact (List.foldl_hom Recount.counts fun _ _ => rfl).symm

/-! ### Entries after a watermark -/

/-- The entry is stamped, and later than the watermark if there is one. Stamps are compared by
    their octets. -/
def Entry.IsAdmitted (watermark : String) (entry : Entry) : Prop :=
  ∃ stamp ∈ entry.stamp, stamp ≠ "" ∧
    (watermark = "" ∨ Utf8.encode watermark.toList < Utf8.encode stamp.toList)

instance (watermark : String) (entry : Entry) : Decidable (entry.IsAdmitted watermark) :=
  inferInstanceAs (Decidable (∃ stamp ∈ entry.stamp, _ ∧ _))

def Usage.hasCount (usage : Usage) : Bool :=
  usage.input.isSome || usage.output.isSome || usage.cacheRead.isSome ||
    usage.cacheCreation.isSome

/-- The usage of the entry if it has any count, else that of its message if that has any. -/
def Entry.toldUsage? (entry : Entry) : Option Usage :=
  if entry.usage.any Usage.hasCount then entry.usage
  else (entry.message.bind Message.usage).filter Usage.hasCount

/-- The usage of the entry if it has any count, else that of its message; it counts if there is
    fresh input. -/
def Entry.freshUsage? (entry : Entry) : Option Usage :=
  (if entry.usage.any Usage.hasCount then entry.usage
    else entry.message.bind Message.usage).filter fun usage => 0 < usage.input.getD 0

theorem isNew_iff_isAdmitted {watermark : String} {entry : Entry} :
    isNew watermark entry = true ↔ entry.IsAdmitted watermark := by
  rw [isNew, Entry.stampText, Entry.IsAdmitted]
  cases hstamp : entry.stamp with
  | none => simp
  | some stamp =>
    simp only [Option.getD_some, Option.mem_def, Option.some.injEq, exists_eq_left',
      Bool.and_eq_true, Bool.or_eq_true, decide_eq_true_eq, Utf8.encode_lt_encode_iff,
      String.lt_iff]

theorem Usage.not_isEmpty_eq_hasCount (usage : Usage) : (!usage.isEmpty) = usage.hasCount := by
  simp only [isEmpty, hasCount, Bool.not_and, Option.not_isNone]

theorem Usage.hasCount_of_fresh {usage : Usage} (h : 0 < usage.input.getD 0) :
    usage.hasCount = true := by
  cases hinput : usage.input with
  | none =>
    rw [hinput] at h
    exact absurd h (by decide)
  | some count => simp [hasCount, hinput]

theorem usage?_eq_toldUsage? (entry : Entry) : entry.usage? = entry.toldUsage? := by
  simp only [Entry.usage?, Entry.toldUsage?, Usage.not_isEmpty_eq_hasCount]
  cases entry.usage with
  | none => rfl
  | some usage =>
    rw [Option.filter_some, Option.any_some]
    cases usage.hasCount <;> rfl

/-- Usage without any count is passed over in a message as well, but it has no fresh input. -/
theorem counted?_eq_freshUsage? (entry : Entry) :
    Increment.counted? entry = entry.freshUsage? := by
  have hsame (usage : Option Usage) :
      (usage.filter Usage.hasCount).filter (fun usage => 0 < usage.input.getD 0) =
        usage.filter fun usage => 0 < usage.input.getD 0 := by
    rw [Option.filter_filter]
    cases usage with
    | none => rfl
    | some usage =>
      rw [Option.filter_some, Option.filter_some]
      by_cases hfresh : 0 < usage.input.getD 0
      · simp [hfresh, Usage.hasCount_of_fresh hfresh]
      · simp [hfresh]
  rw [Increment.counted?, usage?_eq_toldUsage?, Entry.toldUsage?, Entry.freshUsage?]
  split
  · rfl
  · exact hsame _

/-- The last model counts. -/
theorem Increment.model_foldl_step (found : List Entry) (sum : Increment) :
    (found.foldl step sum).model = (found.filterMap Entry.model?).getLast?.or sum.model := by
  induction found generalizing sum with
  | nil => rfl
  | cons entry found ih =>
    rw [List.foldl_cons, ih, step]
    cases hmodel : entry.model? with
    | none => rw [List.filterMap_cons_none hmodel, Option.none_or]
    | some model =>
      rw [List.filterMap_cons_some hmodel, List.getLast?_cons]
      cases (found.filterMap Entry.model?).getLast? <;> rfl

/-- One of some stamps, and none of them is later. -/
def IsLatest (latest : String) (stamps : List String) : Prop :=
  latest ∈ stamps ∧ ∀ stamp ∈ stamps, Utf8.encode stamp.toList ≤ Utf8.encode latest.toList

theorem IsLatest.eq_of_perm {latest latest' : String} {stamps stamps' : List String}
    (h : IsLatest latest stamps) (h' : IsLatest latest' stamps') (hperm : stamps.Perm stamps') :
    latest = latest' := by
  have hle := h'.2 latest (hperm.mem_iff.1 h.1)
  have hle' := h.2 latest' (hperm.mem_iff.2 h'.1)
  rw [Utf8.encode_toList_le_iff] at hle hle'
  exact String.le_antisymm hle hle'

theorem Increment.isLatest_foldl_step (found : List Entry) (watermark : String) :
    IsLatest (found.foldl step (start watermark)).watermark
      (watermark :: found.map Entry.stampText) := by
  constructor
  · rcases watermark_foldl_step found (start watermark) with hsame | ⟨entry, hentry, hstamp⟩
    · rw [hsame]
      exact List.mem_cons_self
    · rw [hstamp]
      exact List.mem_cons_of_mem _ (List.mem_map_of_mem hentry)
  · rw [List.forall_mem_cons]
    simp only [Utf8.encode_toList_le_iff]
    refine ⟨watermark_le_foldl_step found (start watermark), ?_⟩
    intro stamp hstamp
    obtain ⟨entry, hentry, rfl⟩ := List.mem_map.1 hstamp
    have hold := not_isNew_foldl_step found (start watermark) (Or.inr hentry)
    rw [← Bool.not_eq_true, isNew_iff] at hold
    exact hold

/-! ### Lines in another order -/

/-- The same lines in some order. Blank lines, and with them a line feed at the end, do not
    matter. -/
def SameLines (content other : List Char) : Prop :=
  ((Text.lines content).filter fun line => !Text.isAllBlank line).Perm
    ((Text.lines other).filter fun line => !Text.isAllBlank line)

instance (content other : List Char) : Decidable (SameLines content other) :=
  inferInstanceAs (Decidable (List.Perm _ _))

theorem entries_eq_filterMap_filter (content : List Char) :
    entries content =
      ((Text.lines content).filter fun line => !Text.isAllBlank line).filterMap Entry.parse? := by
  rw [entries_eq_filterMap, List.filterMap_filter]
  apply List.filterMap_congr
  intro line _
  cases hblank : Text.isAllBlank line with
  | true => exact Entry.parse?_of_isAllBlank hblank
  | false => rfl

theorem SameLines.entries_perm {content other : List Char} (h : SameLines content other) :
    (entries content).Perm (entries other) := by
  rw [entries_eq_filterMap_filter, entries_eq_filterMap_filter]
  exact h.filterMap _

/-! ### Increments -/

/-- The entries that count since a watermark, and the usages that count of them. -/
def admitted (content : List Char) (watermark : String) : List Entry :=
  (entries content).filter fun entry => entry.IsAdmitted watermark

def counted (content : List Char) (watermark : String) : List Usage :=
  (admitted content watermark).filterMap Entry.freshUsage?

theorem increment_eq_foldl (content : List Char) (watermark : String) :
    increment content watermark =
      (admitted content watermark).foldl Increment.step (.start watermark) := by
  have hfilter : (entries content).filter (isNew watermark) = admitted content watermark := by
    apply List.filter_congr
    intro entry _
    rw [Bool.eq_iff_iff, isNew_iff_isAdmitted, decide_eq_true_iff]
  rw [increment, hfilter]

theorem counts_increment (content : List Char) (watermark : String) :
    (increment content watermark).counts = .ofUsages (counted content watermark) := by
  rw [increment_eq_foldl, Increment.counts_foldl_step, counted]
  exact congrArg (fun used => Counts.ofUsages (List.filterMap used _))
    (funext counted?_eq_freshUsage?)

theorem isTotalOf_increment (content : List Char) (watermark : String) :
    IsTotalOf (increment content watermark).counts.tokens (counted content watermark) := by
  rw [counts_increment]
  exact Counts.isTotalOf_ofUsages _

theorem isLatest_increment (content : List Char) (watermark : String) :
    IsLatest (increment content watermark).watermark
      (watermark :: (admitted content watermark).filterMap Entry.stamp) := by
  have hstamps : (admitted content watermark).filterMap Entry.stamp =
      (admitted content watermark).map Entry.stampText := by
    rw [← List.filterMap_eq_map]
    apply List.filterMap_congr
    intro entry hentry
    obtain ⟨stamp, hstamp, -⟩ := of_decide_eq_true (List.mem_filter.1 hentry).2
    rw [Function.comp_apply, Entry.stampText, hstamp, Option.getD_some]
  rw [increment_eq_foldl, hstamps]
  exact Increment.isLatest_foldl_step _ _

theorem SameLines.admitted_perm {content other : List Char} (h : SameLines content other)
    (watermark : String) : (admitted content watermark).Perm (admitted other watermark) :=
  h.entries_perm.filter _

/-- The increment of a transcript since a watermark: its tokens are the exact total of the fresh
    usages of the admitted entries, its context is that of the last of them, its model is the
    last one that is named, and its watermark is the latest of the stamps and the watermark
    before. Tokens and watermark do not depend on the order of the lines. -/
theorem increment_sums_admitted (content : List Char) (watermark : String) :
    IsTotalOf (increment content watermark).counts.tokens (counted content watermark) ∧
      (increment content watermark).counts.contextTokens.toNat =
        ((counted content watermark).getLast?.map fun usage => min Tokens.maxCount
          ((usage.input.getD 0).toNat + (usage.cacheRead.getD 0).toNat)).getD 0 ∧
      (increment content watermark).model =
        (((admitted content watermark).filterMap fun entry =>
          entry.message.bind Message.model).filter fun model => model ≠ "").getLast? ∧
      IsLatest (increment content watermark).watermark
        (watermark :: (admitted content watermark).filterMap Entry.stamp) ∧
      ∀ other, SameLines content other →
        (increment other watermark).counts.tokens = (increment content watermark).counts.tokens ∧
          (increment other watermark).watermark = (increment content watermark).watermark := by
  refine ⟨isTotalOf_increment content watermark, ?_, ?_, isLatest_increment content watermark,
    fun other hother => ⟨?_, ?_⟩⟩
  · rw [counts_increment, Counts.contextTokens_ofUsages]
    cases (counted content watermark).getLast? with
    | none => rfl
    | some usage =>
      rw [Option.map_some, Option.map_some, Option.getD_some, Option.getD_some,
        Usage.contextTokens, Tokens.toNat_addCount, Nat.min_comm]
      rfl
  · rw [increment_eq_foldl, Increment.model_foldl_step, List.filter_filterMap]
    exact Option.or_none
  · have hperm := (hother.admitted_perm watermark).filterMap Entry.freshUsage?
    exact (isTotalOf_increment other watermark).eq_of_perm
      (isTotalOf_increment content watermark) hperm.symm
  · have hperm := (hother.admitted_perm watermark).filterMap Entry.stamp
    exact (isLatest_increment other watermark).eq_of_perm
      (isLatest_increment content watermark) (hperm.cons watermark).symm

/-- A line that is stamped at eleven; the next one is stamped at ten. -/
def laterLine : List Char :=
  "\x7b\"timestamp\":\"2026-01-20T11\",\"usage\":\x7b\"input_tokens\":5\x7d\x7d".toList

def earlierLine : List Char :=
  "\x7b\"timestamp\":\"2026-01-20T10\",\"usage\":\x7b\"input_tokens\":7\x7d\x7d".toList

theorem increment_sums_admitted_reordered :
    SameLines (laterLine ++ '\n' :: earlierLine) (earlierLine ++ '\n' :: laterLine) ∧
      (increment (earlierLine ++ '\n' :: laterLine) "2026-01-20").counts.tokens =
        ⟨12, 0, 0, 0⟩ ∧
      (increment (earlierLine ++ '\n' :: laterLine) "2026-01-20").watermark =
        "2026-01-20T11" := by
  have hsame : SameLines (laterLine ++ '\n' :: earlierLine) (earlierLine ++ '\n' :: laterLine) := by
    decide +kernel
  have hfirst : (increment (laterLine ++ '\n' :: earlierLine) "2026-01-20").counts.tokens =
        ⟨12, 0, 0, 0⟩ ∧
      (increment (laterLine ++ '\n' :: earlierLine) "2026-01-20").watermark =
        "2026-01-20T11" := by
    decide +kernel
  obtain ⟨htokens, hwatermark⟩ :=
    (increment_sums_admitted _ "2026-01-20").2.2.2.2 (earlierLine ++ '\n' :: laterLine) hsame
  exact ⟨hsame, htokens.trans hfirst.1, hwatermark.trans hfirst.2⟩

end SessionLog.Transcript
