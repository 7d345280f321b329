/-
  SessionLog/Proofs/Session/Counting.lean
  =======================================
  **What a session has counted, and when it is counted anew.**

  A stop counts only usage with fresh input, and saturation never takes a sum back to zero.
  So a session without fresh input has counted nothing at all. That is why the last snapshot
  can tell from two of the four categories whether anything would be lost by counting anew.
-/
import SessionLog.Proofs.Footprint
import SessionLog.Proofs.Session.History
import SessionLog.Proofs.Snapshot.Shown
import SessionLog.Proofs.StateFile.Survival
import SessionLog.Proofs.Transcript.Accounting

namespace SessionLog

open Transcript

/-! ### Counts with fresh input -/

namespace Transcript

namespace Counts

/-- Nothing is counted unless there is fresh input. -/
def IsLed (counts : Counts) : Prop := counts.tokens.input = 0 → counts = .zero

/-- Tokens are added, and the later context counts unless it is empty. -/
def merge (earlier later : Counts) : Counts :=
  ⟨earlier.tokens.add later.tokens,
    if 0 < later.contextTokens then later.contextTokens else earlier.contextTokens⟩

variable {earlier later : Counts}

theorem isLed_zero : IsLed .zero := fun _ => rfl

theorem merge_eq_zero_iff (h : earlier.IsLed) (h' : later.IsLed) :
    earlier.merge later = .zero ↔ earlier = .zero ∧ later = .zero := by
  constructor
  · intro hmerge
    have hinput : Tokens.addCount earlier.tokens.input later.tokens.input = 0 :=
      congrArg (fun counts => counts.tokens.input) hmerge
    obtain ⟨hearlier, hlater⟩ := Tokens.addCount_eq_zero_iff.1 hinput
    exact ⟨h hearlier, h' hlater⟩
  · rintro ⟨rfl, rfl⟩
    rfl

theorem IsLed.merge (h : earlier.IsLed) (h' : later.IsLed) : (earlier.merge later).IsLed := by
  intro hinput
  obtain ⟨hearlier, hlater⟩ := Tokens.addCount_eq_zero_iff.1 hinput
  exact (merge_eq_zero_iff h h').2 ⟨h hearlier, h' hlater⟩

theorem isLed_foldl_merge {found : List Counts} (h : earlier.IsLed)
    (hfound : ∀ counts ∈ found, counts.IsLed) : (found.foldl merge earlier).IsLed := by
  induction found generalizing earlier with
  | nil => exact h
  | cons counts found ih =>
    rw [List.forall_mem_cons] at hfound
    exact ih (h.merge hfound.1) hfound.2

theorem foldl_merge_eq_zero_iff {found : List Counts} (h : earlier.IsLed)
    (hfound : ∀ counts ∈ found, counts.IsLed) :
    found.foldl merge earlier = .zero ↔ earlier = .zero ∧ ∀ counts ∈ found, counts = .zero := by
  induction found generalizing earlier with
  | nil => simp
  | cons counts found ih =>
    rw [List.forall_mem_cons] at hfound ⊢
    rw [List.foldl_cons, ih (h.merge hfound.1) hfound.2, merge_eq_zero_iff h hfound.1, and_assoc]

end Counts

/-- Usage is counted only with fresh input, so none is counted without. -/
theorem Increment.isLed_step {sum : Increment} (h : sum.counts.IsLed) (entry : Entry) :
    (sum.step entry).counts.IsLed := by
  rw [step]
  cases hcounted : counted? entry with
  | none => exact h
  | some usage =>
    have hfresh : 0 < usage.tokens.input :=
      of_decide_eq_true (Option.filter_eq_some_iff.1 hcounted).2
    intro hinput
    obtain ⟨-, hzero⟩ := Tokens.addCount_eq_zero_iff.1 hinput
    rw [hzero] at hfresh
    exact absurd hfresh (by decide)

theorem isLed_incrementIn (transcript : Option (List UInt8)) (watermark : String) :
    (incrementIn transcript watermark).counts.IsLed := by
  cases transcript with
  | none => exact Counts.isLed_zero
  | some octets =>
    rw [incrementIn, increment]
    generalize (entries (Utf8.decodeLenient octets)).filter (isNew watermark) = found
    have hfold (sum : Increment) (h : sum.counts.IsLed) :
        (found.foldl Increment.step sum).counts.IsLed := by
      induction found generalizing sum with
      | nil => exact h
      | cons entry found ih => exact ih _ (Increment.isLed_step h entry)
    exact hfold _ Counts.isLed_zero

end Transcript

/-! ### The counts of a session -/

/-- What a stop counts in the session that it finds. -/
def stopCounts? (event : Option Session × Occurrence) : Option Counts :=
  if event.2.isStop then
    event.1.map fun s =>
      (incrementIn (find? event.2.read s.transcriptPath) s.watermark).counts
  else none

namespace Session

/-- What the stops have counted since the session was opened. -/
def countsSinceOpened (events : List (Option Session × Occurrence)) : List Counts :=
  (events.rtakeWhile fun event => !event.2.payload.opens event.1).filterMap stopCounts?

theorem countsSinceOpened_concat (events : List (Option Session × Occurrence))
    (event : Option Session × Occurrence) :
    countsSinceOpened (events ++ [event]) =
      if event.2.payload.opens event.1 then []
      else countsSinceOpened events ++ (stopCounts? event).toList := by
  rw [countsSinceOpened, List.rtakeWhile_concat]
  cases event.2.payload.opens event.1 with
  | true => rfl
  | false =>
    simp only [Bool.not_false, if_true, Bool.false_eq_true, if_false, List.filterMap_append]
    cases hcounts : stopCounts? event with
    | none => simp [countsSinceOpened, hcounts]
    | some counts => simp [countsSinceOpened, hcounts]

theorem isLed_countsSinceOpened {events : List (Option Session × Occurrence)} :
    ∀ counts ∈ countsSinceOpened events, counts.IsLed := by
  intro counts hcounts
  obtain ⟨event, -, hevent⟩ := List.mem_filterMap.1 hcounts
  rw [stopCounts?] at hevent
  split at hevent
  · obtain ⟨s, -, rfl⟩ := Option.map_eq_some_iff.1 hevent
    exact isLed_incrementIn _ _
  · cases hevent

theorem Step.counts_eq {s t : Session} {o : Occurrence} (h : Step s o t) :
    t.counted.counts = (stopCounts? (some s, o)).toList.foldl Counts.merge s.counted.counts := by
  obtain ⟨-, hother, hstop⟩ := h.counted
  rw [stopCounts?]
  split
  · rename_i hisStop
    rw [hstop (Occurrence.isStop_iff.1 hisStop)]
    rfl
  · rename_i hisStop
    rw [hother fun hevent => hisStop (Occurrence.isStop_iff.2 hevent)]
    rfl

/-- The counts of a session are those of the stops since it was opened, merged. -/
theorem counts_after {run : List Occurrence} {s : Session} (hs : after none run = some s) :
    s.counted.counts = (countsSinceOpened (history none run)).foldl Counts.merge .zero := by
  refine after_induction
    (motive := fun events s =>
      s.counted.counts = (countsSinceOpened events).foldl Counts.merge .zero) ?_ ?_ hs
  · intro events prior o s hopens hnext
    obtain ⟨timeline, hopened⟩ := next_of_opens hopens
    rw [hopened] at hnext
    cases hnext
    rw [countsSinceOpened_concat, if_pos hopens]
    rfl
  · intro events s o t hopens hstep hcounts
    rw [countsSinceOpened_concat, hopens, if_neg Bool.false_ne_true, List.foldl_append, ← hcounts]
    exact hstep.counts_eq

end Session

/-! ### The last snapshot -/

theorem Tokens.hasActivity_eq_false_iff {tokens : Tokens} :
    tokens.hasActivity = false ↔ tokens.input = 0 ∧ tokens.output = 0 := by
  have hpos (count : UInt64) : ¬0 < count ↔ count = 0 := by
    rw [UInt64.lt_iff_toNat_lt, ← UInt64.toNat_inj, UInt64.toNat_zero]
    omega
  rw [hasActivity, Bool.or_eq_false_iff, decide_eq_false_iff_not, decide_eq_false_iff_not, hpos,
    hpos]

theorem Occurrence.transition_of_sessionEnd {o : Occurrence}
    (h : o.payload.event? = some .sessionEnd) (s : Session) :
    o.transition (some s) =
      ⟨some s, .reset, some (if s.tokens.hasActivity then .counted else .recounted)⟩ := by
  rw [transition, Transition.ofPayload, h]
  rfl

theorem Session.hasActivity_eq_false_iff {s : Session} (h : s.counted.counts.IsLed) :
    s.tokens.hasActivity = false ↔ s.counted.counts = .zero := by
  rw [Tokens.hasActivity_eq_false_iff]
  constructor
  · rintro ⟨hinput, -⟩
    exact h hinput
  · intro hzero
    exact ⟨congrArg (fun counts => counts.tokens.input) hzero,
      congrArg (fun counts => counts.tokens.output) hzero⟩

namespace Handler

variable {tree : FileTree} {layout : Layout} {settings : Settings} {now : Moment}

/-- A last snapshot with the counts of the session shows it, whether or not the state file
    could be cleared after that. -/
theorem isShown_commit_ended {s : Session} (hstart : s.start.time.LeapEndsMinute)
    (h : .snapshotNotWritten ∉
      (commit tree layout settings now ⟨some s, .reset, some .counted⟩).journal) :
    Snapshot.IsShown layout
      (commit tree layout settings now ⟨some s, .reset, some .counted⟩).tree s := by
  have hpresent : present? tree layout settings now ⟨some s, .reset, some .counted⟩ =
      some ((writeSnapshot tree layout settings s now.localTime).1,
        (writeSnapshot tree layout settings s now.localTime).2) := rfl
  rw [commit_ended hpresent] at h ⊢
  simp only [List.nil_append, List.mem_append, not_or, writeSnapshot.eq_def] at h
  simp only [writeSnapshot_fst, clearSession_fst]
  have hshown := Snapshot.isShown_of_write hstart (ok_of_not_mem_failure h.1.2)
  exact hshown.replace _

end Handler

namespace Session

variable {run : List Occurrence} {s : Session}

/-- In a session that events lead to, nothing at all is counted without fresh input. -/
theorem isLed_counted (hs : after none run = some s) : s.counted.counts.IsLed := by
  rw [counts_after hs]
  exact Counts.isLed_foldl_merge Counts.isLed_zero isLed_countsSinceOpened

/-- It has no activity exactly if no stop has counted anything since it was opened. -/
theorem hasActivity_after_eq_false_iff (hs : after none run = some s) :
    s.tokens.hasActivity = false ↔
      ∀ counts ∈ countsSinceOpened (history none run), counts = .zero := by
  rw [hasActivity_eq_false_iff (isLed_counted hs), counts_after hs,
    Counts.foldl_merge_eq_zero_iff Counts.isLed_zero isLed_countsSinceOpened]
  exact and_iff_right rfl

end Session

/-- The end of a session with activity shows it with the counts that it has. -/
theorem Visit.isShown_outcome_of_hasActivity {layout : Layout} {v : Visit} {s : Session}
    (hend : v.payload.event? = some .sessionEnd)
    (hread : (StateFile.read v.found layout.stateFile).1 = some s)
    (hactive : s.tokens.hasActivity = true)
    (hwritten : .snapshotNotWritten ∉ (v.outcome layout).journal) :
    (v.outcome layout).transition.snapshot = some .counted ∧
      Snapshot.IsShown layout (v.outcome layout).tree s := by
  have htransition : v.occurrence.transition (some s) = ⟨some s, .reset, some .counted⟩ := by
    rw [Occurrence.transition_of_sessionEnd hend, hactive]
    rfl
  have hstart := (StateFile.isKept_of_read hread).times.start
  have hcommitted : v.committed layout (some s) = Handler.commit v.found layout v.settings
      v.now ⟨some s, .reset, some .counted⟩ := by rw [Visit.committed, htransition]
  have hmade := Handler.transition_commit v.found layout v.settings v.now
    ⟨some s, .reset, some .counted⟩
  have hshown := @Handler.isShown_commit_ended v.found layout v.settings v.now s hstart
  rw [Visit.outcome_eq hread, hcommitted] at hwritten ⊢
  generalize Handler.commit v.found layout v.settings v.now ⟨some s, .reset, some .counted⟩ =
    outcome at hwritten hmade hshown ⊢
  simp only [List.mem_append, not_or] at hwritten
  exact ⟨congrArg Transition.snapshot hmade, hshown hwritten.2⟩

/-- In a session that events lead to, nothing at all is counted without fresh input. So its
    end asks for counting anew exactly if no stop has counted anything since the session was
    opened, and otherwise the last snapshot, if it can be written, shows the session with
    the tokens that it has. -/
theorem recounts_iff_nothing_counted (run : List Occurrence) (s : Session)
    (hs : Session.after none run = some s) :
    let counted := Session.countsSinceOpened (Session.history none run)
    (s.tokens.input = 0 → s.tokens.output = 0 ∧ s.tokens.cacheRead = 0 ∧
      s.tokens.cacheCreation = 0 ∧ s.contextTokens = 0) ∧
    (∀ o : Occurrence, o.payload.event? = some .sessionEnd →
      ((o.transition (some s)).snapshot = some .recounted ↔
        ∀ counts ∈ counted, counts = .zero)) ∧
    ∀ (layout : Layout) (v : Visit), v.payload.event? = some .sessionEnd →
      (StateFile.read v.found layout.stateFile).1 = some s →
      (∃ counts ∈ counted, counts ≠ .zero) →
      .snapshotNotWritten ∉ (v.outcome layout).journal →
      (v.outcome layout).transition.snapshot = some .counted ∧
        Snapshot.IsShown layout (v.outcome layout).tree s := by
  intro counted
  have hzero : s.tokens.hasActivity = false ↔ ∀ counts ∈ counted, counts = .zero :=
    Session.hasActivity_after_eq_false_iff hs
  refine ⟨?_, ?_, ?_⟩
  · intro hinput
    have hnothing := Session.isLed_counted hs hinput
    exact ⟨congrArg (fun counts => counts.tokens.output) hnothing,
      congrArg (fun counts => counts.tokens.cacheRead) hnothing,
      congrArg (fun counts => counts.tokens.cacheCreation) hnothing,
      congrArg Counts.contextTokens hnothing⟩
  · intro o hevent
    rw [Occurrence.transition_of_sessionEnd hevent, ← hzero]
    cases s.tokens.hasActivity with
    | false => exact iff_of_true rfl rfl
    | true =>
      have hcounted : some TokenSource.counted ≠ some .recounted := by decide
      exact iff_of_false hcounted (by decide)
  · intro layout v hevent hread hsome hwritten
    have hactive : s.tokens.hasActivity = true := by
      rw [← Bool.not_eq_false, hzero]
      obtain ⟨counts, hcounts, hne⟩ := hsome
      intro hall
      exact hne (hall counts hcounts)
    exact Visit.isShown_outcome_of_hasActivity hevent hread hactive hwritten

/-- A session is started on a transcript, and a stop finds one entry in it. -/
def startAndCount : List Occurrence :=
  [{ Occurrence.named "SessionStart" none with
      payload := { Payload.named "SessionStart" with transcriptPath := some "t" } },
    .named "Stop" (some (usageLine "c" 3))]

def countedSession : Session :=
  { Session.fresh .epoch "" "t" "" "c" with tokens := ⟨3, 0, 0, 0⟩, contextTokens := 3 }

/-- The session in its state file, and its end. -/
def endOfCounted : Visit where
  payload := .named "SessionEnd"
  settings := .default
  now := .epoch
  found := (StateFile.store .bare (Layout.stateFile ⟨"/p"⟩) countedSession).1

theorem counted_shown_at_end :
    Session.after none startAndCount = some countedSession ∧
      (endOfCounted.outcome ⟨"/p"⟩).transition.snapshot = some .counted ∧
      Snapshot.IsShown ⟨"/p"⟩ (endOfCounted.outcome ⟨"/p"⟩).tree countedSession := by
  have hafter : Session.after none startAndCount = some countedSession := by decide +kernel
  have hread : (StateFile.read endOfCounted.found (Layout.stateFile ⟨"/p"⟩)).1 =
      some countedSession := by decide +kernel
  have hcounted : ∃ counts ∈ Session.countsSinceOpened (Session.history none startAndCount),
      counts ≠ .zero := by decide +kernel
  have hwritten : .snapshotNotWritten ∉ (endOfCounted.outcome ⟨"/p"⟩).journal := by
    decide +kernel
  obtain ⟨-, -, hend⟩ := recounts_iff_nothing_counted startAndCount countedSession hafter
  exact ⟨hafter, hend ⟨"/p"⟩ endOfCounted rfl hread hcounted hwritten⟩

end SessionLog
