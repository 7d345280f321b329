/-
  SessionLog/Proofs/Transcript/Accounting.lean
  ============================================
  **Token accounting over runs: nothing twice, and nothing lost while stamps advance.**

  Every stop reads the whole transcript again, and the watermark alone keeps apart what
  has been counted. Two facts about the transcript at the last stop are carried through
  a run: none of its entries is new any more, and the tokens taken in are at most those
  of its entries after the first watermark. When all that is added is stamped later than
  all that is there, the parts that the stops take in are exactly the parts of one scan.
-/
import Mathlib.Data.List.Chain
import SessionLog.Proofs.Machine
import SessionLog.Proofs.Transcript.Increment

namespace SessionLog

open Transcript

namespace Transcript.Increment

/-! ### Tokens of entries -/

def gain (entry : Entry) : Tokens :=
  match counted? entry with
  | none => .zero
  | some usage => usage.tokens

def total (found : List Entry) : Tokens := found.foldr (fun entry sum => (gain entry).add sum) .zero

theorem total_append (front back : List Entry) :
    total (front ++ back) = (total front).add (total back) := by
  induction front with
  | nil => exact (Tokens.zero_add _).symm
  | cons entry front ih =>
    have hcons (rest : List Entry) : total (entry :: rest) = (gain entry).add (total rest) := rfl
    rw [List.cons_append, hcons, hcons, ih, Tokens.add_assoc]

/-- Where more entries are let through, no fewer tokens are. -/
theorem total_filter_le {p q : Entry → Bool} (found : List Entry)
    (h : ∀ entry ∈ found, p entry = true → q entry = true) :
    total (found.filter p) ≤ total (found.filter q) := by
  induction found with
  | nil => exact Tokens.le_refl _
  | cons entry found ih =>
    have hrest := ih fun e he => h e (List.mem_cons_of_mem _ he)
    by_cases hp : p entry = true
    · rw [List.filter_cons_of_pos hp, List.filter_cons_of_pos (h entry List.mem_cons_self hp)]
      exact Tokens.add_le_add (Tokens.le_refl _) hrest
    · rw [List.filter_cons_of_neg hp]
      by_cases hq : q entry = true
      · rw [List.filter_cons_of_pos hq]
        have hadd := Tokens.le_add_right (total (found.filter q)) (gain entry)
        rw [Tokens.add_comm] at hadd
        exact Tokens.le_trans hrest hadd
      · rw [List.filter_cons_of_neg hq]
        exact hrest

theorem tokens_foldl_step (found : List Entry) (sum : Increment) :
    (found.foldl step sum).counts.tokens = sum.counts.tokens.add (total found) := by
  induction found generalizing sum with
  | nil => exact (Tokens.add_zero _).symm
  | cons entry found ih =>
    have hstep : (sum.step entry).counts.tokens = sum.counts.tokens.add (gain entry) := by
      rcases Option.eq_none_or_eq_some (counted? entry) with h | ⟨usage, h⟩
      · simp [step, gain, h, Counts.add]
      · simp only [step, gain, h, Counts.add]
    rw [List.foldl_cons, ih, hstep, Tokens.add_assoc]
    rfl

/-! ### One more look at a transcript -/

def takeIn (sum : Increment) (found : List Entry) : Increment :=
  sum.merge ((found.filter (isNew sum.watermark)).foldl step (start sum.watermark))

theorem takeIn_eq_foldl (sum : Increment) (found : List Entry) :
    sum.takeIn found = (found.filter (isNew sum.watermark)).foldl step sum :=
  (foldl_step_eq_merge _ _).symm

/-- After a look at some entries none of them is new. -/
theorem not_isNew_takeIn (sum : Increment) {found : List Entry} {entry : Entry}
    (h : entry ∈ found) : isNew (sum.takeIn found).watermark entry = false := by
  rw [takeIn_eq_foldl]
  apply not_isNew_foldl_step
  cases hnew : isNew sum.watermark entry with
  | false => exact Or.inl rfl
  | true => exact Or.inr (List.mem_filter.2 ⟨h, hnew⟩)

/-- What a sum has of some entries when it began with another one: of those after the
    first watermark each once at most, and nothing is left that would be new. -/
structure Covers (base sum : Increment) (found : List Entry) : Prop where
  tokens_le : sum.counts.tokens ≤
    base.counts.tokens.add (total (found.filter (isNew base.watermark)))
  not_isNew : ∀ entry ∈ found, isNew sum.watermark entry = false
  watermark_le : base.watermark ≤ sum.watermark

theorem Covers.refl (base : Increment) : Covers base base [] where
  tokens_le := Tokens.le_add_right _ _
  not_isNew _ h := (List.not_mem_nil h).elim
  watermark_le := String.le_refl _

theorem Covers.filter_isNew {base sum : Increment} {found : List Entry}
    (h : Covers base sum found) (more : List Entry) :
    (found ++ more).filter (isNew sum.watermark) = more.filter (isNew sum.watermark) := by
  rw [List.filter_append, List.filter_eq_nil_iff.2, List.nil_append]
  intro entry hentry
  rw [h.not_isNew entry hentry]
  exact Bool.false_ne_true

theorem Covers.takeIn {base sum : Increment} {found : List Entry} (h : Covers base sum found)
    (more : List Entry) : Covers base (sum.takeIn (found ++ more)) (found ++ more) where
  tokens_le := by
    have hmore : ∀ entry ∈ more, isNew sum.watermark entry = true →
        isNew base.watermark entry = true := by
      intro entry _ hnew
      rw [isNew_iff] at hnew ⊢
      exact Decidable.byContradiction fun hnot =>
        absurd (String.le_trans hnot h.watermark_le) (not_not_intro hnew)
    rw [takeIn_eq_foldl, tokens_foldl_step, h.filter_isNew, List.filter_append, total_append,
      ← Tokens.add_assoc]
    exact Tokens.add_le_add h.tokens_le (total_filter_le more hmore)
  not_isNew entry hentry := not_isNew_takeIn sum hentry
  watermark_le := by
    rw [takeIn_eq_foldl]
    exact String.le_trans h.watermark_le (watermark_le_foldl_step _ _)

/-- When what was added is stamped later than all that was there, the look at it goes on
    where one look at everything would. -/
theorem takeIn_takeIn {base : Increment} {found more : List Entry}
    (hlater : ∀ entry ∈ more, entry.stampText ≠ "" →
      ∀ other ∈ found, other.stampText < entry.stampText) :
    (base.takeIn found).takeIn (found ++ more) = base.takeIn (found ++ more) := by
  have hcovers : Covers base (base.takeIn found) found := by
    have h := (Covers.refl base).takeIn found
    rwa [List.nil_append] at h
  have hsame : more.filter (isNew (base.takeIn found).watermark) =
      more.filter (isNew base.watermark) := by
    apply List.filter_congr
    intro entry hentry
    rw [Bool.eq_iff_iff, isNew_iff, isNew_iff]
    constructor
    · intro hlt
      exact Decidable.byContradiction fun hnot =>
        absurd (String.le_trans hnot hcovers.watermark_le) (not_not_intro hlt)
    · intro hlt
      have hstamp : entry.stampText ≠ "" := by
        intro hempty
        rw [hempty] at hlt
        exact List.not_lt_nil _ hlt
      rw [takeIn_eq_foldl]
      rcases watermark_foldl_step (found.filter (isNew base.watermark)) base with
        heq | ⟨other, hother, heq⟩
      · rw [heq]
        exact hlt
      · rw [heq]
        exact hlater entry hentry hstamp other (List.mem_filter.1 hother).1
  rw [takeIn_eq_foldl (base.takeIn found), hcovers.filter_isNew, hsame, takeIn_eq_foldl base,
    takeIn_eq_foldl base, List.filter_append, List.foldl_append]

end Transcript.Increment

/-! ### Steps of a session -/

namespace Session

open Transcript.Increment

def counted (s : Session) : Increment := ⟨⟨s.tokens, s.contextTokens⟩, s.model, s.watermark⟩

@[simp] theorem counted_useTool (s : Session) (tool : String) (input : Json)
    (response : Option Json) (time : DateTime) :
    (s.useTool tool input response time).counted = s.counted := by
  rw [useTool_eq]
  rfl

@[simp] theorem transcriptPath_useTool (s : Session) (tool : String) (input : Json)
    (response : Option Json) (time : DateTime) :
    (s.useTool tool input response time).transcriptPath = s.transcriptPath := by
  rw [useTool_eq]

@[simp] theorem counted_respond (s : Session) (response : Option String) (time : DateTime) :
    (s.respond response time).counted = s.counted := by
  cases response <;> rfl

@[simp] theorem watermark_respond (s : Session) (response : Option String) (time : DateTime) :
    (s.respond response time).watermark = s.watermark := by
  cases response <;> rfl

@[simp] theorem transcriptPath_respond (s : Session) (response : Option String) (time : DateTime) :
    (s.respond response time).transcriptPath = s.transcriptPath := by
  cases response <;> rfl

/-- Taking in an increment that moved the watermark on is a merge. An empty watermark is
    not taken over, but there is none to lose then. -/
@[simp] theorem counted_takeIn (s : Session) {new : Increment} (h : s.watermark ≤ new.watermark) :
    (s.takeIn new).counted = s.counted.merge new := by
  have hwatermark : (s.takeIn new).watermark = new.watermark := by
    simp only [takeIn]
    split
    · rename_i hempty
      rw [hempty] at h ⊢
      exact String.le_antisymm h (List.not_lt_nil _)
    · rfl
  exact congrArg (Increment.mk _ _) hwatermark

@[simp] theorem counted_answer (s : Session) (settings : Settings)
    (transcript : Option (List UInt8)) (time : DateTime) :
    (s.answer settings transcript time).counted =
      s.counted.merge (incrementIn transcript s.watermark) := by
  rw [answer, counted_takeIn, counted_respond]
  rw [watermark_respond]
  exact watermark_le_incrementIn transcript s.watermark

/-- A step leaves the session on its transcript, and counts only at a stop. -/
theorem Step.counted {s t : Session} {o : Occurrence} (h : Step s o t) :
    t.transcriptPath = s.transcriptPath ∧
      (o.payload.event? ≠ some .stop → t.counted = s.counted) ∧
      (o.payload.event? = some .stop → t.counted =
        s.counted.merge (incrementIn (find? o.read s.transcriptPath) s.watermark)) := by
  cases h with
  | idle hidle =>
    exact ⟨rfl, fun _ => rfl, fun hstop => absurd hstop (Occurrence.ne_stop_of_isIdle hidle)⟩
  | prompt text hevent =>
    exact ⟨rfl, fun _ => rfl, fun hstop => by rw [hevent] at hstop; cases hstop⟩
  | announce tool input hevent _ =>
    exact ⟨rfl, fun _ => rfl, fun hstop => by rw [hevent] at hstop; cases hstop⟩
  | useTool tool input response hevent _ =>
    exact ⟨transcriptPath_useTool s tool input response _,
      fun _ => counted_useTool s tool input response _,
      fun hstop => by rw [hevent] at hstop; cases hstop⟩
  | finish pending hevent _ =>
    exact ⟨rfl, fun _ => rfl, fun hstop => by rw [hevent] at hstop; cases hstop⟩
  | request tool input hevent =>
    exact ⟨rfl, fun _ => rfl, fun hstop => by rw [hevent] at hstop; cases hstop⟩
  | answer hevent =>
    refine ⟨transcriptPath_respond s _ _, fun hnot => absurd hevent hnot, ?_⟩
    intro _
    exact counted_answer s o.settings _ _

end Session

/-! ### Runs -/

def Occurrence.isStop (o : Occurrence) : Bool :=
  match o.payload.event? with
  | some .stop => true
  | _ => false

theorem Occurrence.isStop_iff {o : Occurrence} :
    o.isStop = true ↔ o.payload.event? = some .stop := by
  unfold isStop
  split <;> simp_all

/-- What the stops of a run find at the path of a transcript. -/
def stopContents (path : String) (run : List Occurrence) : List (Option (List UInt8)) :=
  (run.filter Occurrence.isStop).map fun o => find? o.read path

/-- A transcript has grown by whole lines. -/
def Extends (before after : List UInt8) : Prop :=
  before <+: after ∧ IsWhole (after.drop before.length)

instance : DecidableRel Extends := fun _ _ => inferInstanceAs (Decidable (_ ∧ _))

/-- The lines that were added are stamped later than all that was there; lines without a
    stamp do not matter. -/
def Advances (before after : List UInt8) : Prop :=
  ∀ entry ∈ entriesIn (after.drop before.length), entry.stampText ≠ "" →
    ∀ other ∈ entriesIn before, other.stampText < entry.stampText

instance : DecidableRel Advances := fun before after =>
  inferInstanceAs (Decidable (∀ entry ∈ entriesIn (after.drop before.length), _ → _))

/-- A run within a session counts what its stops find, one after the other. -/
theorem after_counted (run : List Occurrence) (s : Session) (contents : List (List UInt8))
    (hstays : ∀ o ∈ run, o.payload.staysIn s.transcriptPath = true)
    (hfound : stopContents s.transcriptPath run = contents.map some) :
    ∃ t, Session.after (some s) run = some t ∧
      t.counted = contents.foldl (fun sum octets => sum.takeIn (entriesIn octets)) s.counted := by
  induction run generalizing s contents with
  | nil =>
    have hnil : contents = [] := List.map_eq_nil_iff.1 hfound.symm
    exact ⟨s, rfl, by rw [hnil]; rfl⟩
  | cons o run ih =>
    obtain ⟨t, hnext, hstep⟩ := Session.exists_step (hstays o List.mem_cons_self)
    obtain ⟨hpath, hother, hstop⟩ := hstep.counted
    have hstays' : ∀ o' ∈ run, o'.payload.staysIn t.transcriptPath = true := by
      intro o' ho'
      rw [hpath]
      exact hstays o' (List.mem_cons_of_mem _ ho')
    rw [Session.after_cons, hnext]
    -- a stop uses up the first content, any other event none
    by_cases ho : o.isStop = true
    · cases contents with
      | nil => simp [stopContents, ho] at hfound
      | cons octets contents =>
        simp only [stopContents, List.filter_cons_of_pos ho, List.map_cons, List.cons.injEq]
          at hfound
        have hcounted := hstop (Occurrence.isStop_iff.1 ho)
        rw [hfound.1] at hcounted
        obtain ⟨u, hu, hsum⟩ := ih t contents hstays' (by rw [hpath]; exact hfound.2)
        exact ⟨u, hu, by rw [hsum, hcounted]; rfl⟩
    · have hcounted := hother fun hevent => ho (Occurrence.isStop_iff.2 hevent)
      have hfound' : stopContents t.transcriptPath run = contents.map some := by
        rw [hpath, ← hfound, stopContents, stopContents, List.filter_cons_of_neg ho]
      obtain ⟨u, hu, hsum⟩ := ih t contents hstays' hfound'
      exact ⟨u, hu, by rw [hsum, hcounted]⟩

/-- Looks at a transcript that grows cover it as it is in the end. -/
theorem covers_foldl (base sum : Increment) (before : List UInt8)
    (contents : List (List UInt8)) (hwhole : IsWhole before)
    (hcovers : Increment.Covers base sum (entriesIn before))
    (hgrows : (before :: contents).IsChain Extends) (last : List UInt8)
    (hlast : (before :: contents).getLast? = some last) :
    Increment.Covers base
        (contents.foldl (fun sum octets => sum.takeIn (entriesIn octets)) sum)
        (entriesIn last) ∧
      (sum = base.takeIn (entriesIn before) → (before :: contents).IsChain Advances →
        contents.foldl (fun sum octets => sum.takeIn (entriesIn octets)) sum =
          base.takeIn (entriesIn last)) := by
  induction contents generalizing sum before with
  | nil =>
    cases hlast
    exact ⟨hcovers, fun hsum _ => hsum⟩
  | cons octets contents ih =>
    obtain ⟨⟨⟨more, hmore⟩, hadded⟩, hgrows'⟩ := List.isChain_cons_cons.1 hgrows
    have hdrop : octets.drop before.length = more := by
      rw [← hmore, List.drop_left]
    have hentries : entriesIn octets = entriesIn before ++ entriesIn more := by
      rw [← hmore, entriesIn_append hwhole]
    have hwhole' : IsWhole octets := by
      rw [hdrop] at hadded
      rcases hadded with rfl | hfeed
      · rw [← hmore, List.append_nil]
        exact hwhole
      · refine Or.inr ?_
        rw [← hmore, List.getLast?_append, hfeed]
        rfl
    -- the invariant: what has been seen so far is covered
    have hcovers' : Increment.Covers base (sum.takeIn (entriesIn octets)) (entriesIn octets) := by
      rw [hentries]
      exact hcovers.takeIn _
    have hlast' : (octets :: contents).getLast? = some last := by
      rw [← hlast, List.getLast?_cons_cons]
    obtain ⟨hall, hexact⟩ := ih (sum.takeIn (entriesIn octets)) octets hwhole' hcovers'
      hgrows' hlast'
    refine ⟨hall, fun hsum hadvances => hexact ?_ (List.isChain_cons_cons.1 hadvances).2⟩
    have hlater := (List.isChain_cons_cons.1 hadvances).1
    rw [Advances, hdrop] at hlater
    rw [hsum, hentries, Increment.takeIn_takeIn hlater]

def usageLine (stamp : String) (input : Nat) : List UInt8 :=
  Utf8.encode ("\x7b\"timestamp\":\"".toList ++ stamp.toList ++
    "\",\"usage\":\x7b\"input_tokens\":".toList ++ Text.digits input ++
    "\x7d\x7d\n".toList)

/-- The tokens of a session after some stops are at most what it had and what one scan of
    the last content adds: no entry counts twice. If the stamps advance from stop to stop,
    the session has exactly what one scan gives it. -/
theorem tokens_after_stops (s : Session) (run : List Occurrence)
    (contents : List (List UInt8)) (last : List UInt8)
    (hstays : ∀ o ∈ run, o.payload.staysIn s.transcriptPath = true)
    (hfound : stopContents s.transcriptPath run = contents.map some)
    (hgrows : ([] :: contents).IsChain Extends) (hlast : contents.getLast? = some last) :
    let scan := increment (Utf8.decodeLenient last) s.watermark
    ∃ t, Session.after (some s) run = some t ∧
      t.tokens ≤ s.tokens.add scan.counts.tokens ∧
      (([] :: contents).IsChain Advances →
        t.tokens = s.tokens.add scan.counts.tokens ∧ t.watermark = scan.watermark ∧
        t.contextTokens =
          (if 0 < scan.counts.contextTokens then scan.counts.contextTokens
            else s.contextTokens) ∧
        t.model = scan.model.or s.model) := by
  intro scan
  obtain ⟨t, hafter, hcounted⟩ := after_counted run s contents hstays hfound
  have hlast' : ([] :: contents).getLast? = some last := by
    rw [List.getLast?_cons, hlast]
    rfl
  obtain ⟨hcovers, hexact⟩ := covers_foldl s.counted s.counted [] contents (Or.inl rfl)
    (.refl s.counted) hgrows last hlast'
  rw [← hcounted] at hcovers hexact
  have hscan : s.counted.takeIn (entriesIn last) = s.counted.merge scan := rfl
  have hstart : s.counted = s.counted.takeIn (entriesIn []) :=
    (Increment.merge_start s.counted).symm
  refine ⟨t, hafter, ?_, fun hadvances => ?_⟩
  · have htotal : scan.counts.tokens =
        Increment.total ((entriesIn last).filter (isNew s.watermark)) :=
      (Increment.tokens_foldl_step _ _).trans (Tokens.zero_add _)
    rw [htotal]
    exact hcovers.tokens_le
  · have hequal := (hexact hstart hadvances).trans hscan
    exact ⟨congrArg (fun sum => sum.counts.tokens) hequal, congrArg Increment.watermark hequal,
      congrArg (fun sum => sum.counts.contextTokens) hequal, congrArg Increment.model hequal⟩

/-- Two stops and an unknown event between them: an entry from before the watermark is not
    counted, the others are counted once each. -/
theorem tokens_after_two_stops :
    let s := Session.fresh .epoch "" "t" "" "b"
    let first := usageLine "a" 1 ++ usageLine "c" 3
    let second := first ++ usageLine "d" 4
    let run := [Occurrence.named "Stop" (some first), .named "Noise" none,
      .named "Stop" (some second)]
    ∃ t, Session.after (some s) run = some t ∧ t.tokens.input = 7 ∧ t.watermark = "d" := by
  intro s first second run
  have hgrows : ([] :: [first, second]).IsChain Extends := by decide +kernel
  have hadvances : ([] :: [first, second]).IsChain Advances := by decide +kernel
  obtain ⟨t, hafter, -, hexact⟩ := tokens_after_stops s run [first, second] second
    (by decide +kernel) (by decide +kernel) hgrows (by decide +kernel)
  obtain ⟨htokens, hwatermark, -, -⟩ := hexact hadvances
  refine ⟨t, hafter, ?_, ?_⟩
  · rw [htokens]
    decide +kernel
  · rw [hwatermark]
    decide +kernel

end SessionLog
