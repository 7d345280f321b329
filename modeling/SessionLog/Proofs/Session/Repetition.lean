/-
  SessionLog/Proofs/Session/Repetition.lean
  =========================================
  **A stop that finds the transcript as it was.**

  The watermark keeps such a stop from counting anything: after one look at a transcript
  none of its entries is new. Nothing of the kind goes with the latest response. What was
  said last is recorded by every stop, whether or not it was said since the stop before. So
  a second stop leaves the session as it is exactly where nothing is said.
-/
import SessionLog.Proofs.Transcript.Accounting
import SessionLog.Proofs.Transcript.Tail

namespace SessionLog

/-! ### The same transcript again -/

namespace Transcript

/-- From the watermark of one look on, another one finds nothing. -/
theorem incrementIn_again (transcript : Option (List UInt8)) (watermark : String) :
    incrementIn transcript (incrementIn transcript watermark).watermark =
      .start (incrementIn transcript watermark).watermark := by
  cases transcript with
  | none => rfl
  | some octets =>
    have hold : (entriesIn octets).filter
        (isNew (incrementIn (some octets) watermark).watermark) = [] := by
      rw [List.filter_eq_nil_iff]
      intro entry hentry
      rw [Bool.not_eq_true]
      apply Increment.not_isNew_foldl_step
      cases hnew : isNew watermark entry with
      | false => exact Or.inl hnew
      | true => exact Or.inr (List.mem_filter.2 ⟨hentry, hnew⟩)
    exact congrArg (List.foldl Increment.step (.start _)) hold

/-- At the end of a transcript the assistant says nothing. -/
def IsSilent (transcript : Option (List UInt8)) : Prop :=
  ∀ octets ∈ transcript, newestIn? (tail octets) = none

instance (transcript : Option (List UInt8)) : Decidable (IsSilent transcript) :=
  inferInstanceAs (Decidable (∀ octets ∈ transcript, _ = _))

theorem latestIn?_eq_none_iff {transcript : Option (List UInt8)} {maxLength : Nat} :
    latestIn? transcript maxLength = none ↔ IsSilent transcript := by
  cases transcript with
  | none =>
    constructor
    · intro _ octets hoctets
      cases hoctets
    · intro _
      rfl
  | some octets =>
    rw [latestIn?_eq_map, Option.map_eq_none_iff]
    constructor
    · intro hnone found hfound
      cases hfound
      exact hnone
    · intro hsilent
      exact hsilent octets rfl

end Transcript

namespace Session

open Transcript

/-! ### Two answers -/

theorem takeIn_start (s : Session) : s.takeIn (.start s.watermark) = s := by
  have hwatermark : (s.takeIn (.start s.watermark)).watermark = s.watermark := ite_self _
  have htaken : s.takeIn (.start s.watermark) =
      { s with
        tokens := s.tokens.add .zero
        watermark := (s.takeIn (.start s.watermark)).watermark } := rfl
  rw [htaken, hwatermark, Tokens.add_zero]

theorem watermark_answer (s : Session) (settings : Settings) (transcript : Option (List UInt8))
    (time : DateTime) :
    (s.answer settings transcript time).watermark =
      (incrementIn transcript s.watermark).watermark :=
  congrArg Increment.watermark (counted_answer s settings transcript time)

/-- A second answer to the same transcript only tells the response again. -/
theorem answer_answer (s : Session) (settings settings' : Settings)
    (transcript : Option (List UInt8)) (time later : DateTime) :
    (s.answer settings transcript time).answer settings' transcript later =
      (s.answer settings transcript time).respond
        (latestIn? transcript settings'.maxResponse) later := by
  have hnothing : incrementIn transcript (s.answer settings transcript time).watermark =
      .start (s.answer settings transcript time).watermark := by
    rw [watermark_answer]
    exact incrementIn_again transcript s.watermark
  rw [answer, hnothing]
  rw [← watermark_respond _ (latestIn? transcript settings'.maxResponse) later]
  exact takeIn_start _

theorem respond_eq (s : Session) (response : Option String) (time : DateTime) :
    s.respond response time =
      { s with timeline := s.timeline ++
          (response.map (TimelineEntry.response (stamp time))).toList } := by
  cases response with
  | none =>
    simp only [Option.map_none, Option.toList_none, List.append_nil]
    rfl
  | some text => rfl

theorem respond_eq_self_iff {s : Session} {response : Option String} {time : DateTime} :
    s.respond response time = s ↔ response = none := by
  constructor
  · intro h
    have htimeline := congrArg Session.timeline h
    rw [respond_eq] at htimeline
    cases response with
    | none => rfl
    | some text => exact absurd (List.append_right_eq_self.1 htimeline) (List.cons_ne_nil _ _)
  · rintro rfl
    rfl

theorem next_of_stop {o : Occurrence} (h : o.payload.event? = some .stop) (s : Session) :
    next (some s) o =
      some (s.answer o.settings (find? o.read s.transcriptPath) o.now.localTime) := by
  rw [next, Occurrence.transition, Transition.ofPayload, h]
  rfl

end Session

open Transcript

/-- A second stop that finds the transcript as the first one did, at whatever times and with
    whatever settings, counts nothing and adds at most the response to the timeline: it does
    so whenever there is one. It leaves the session as it is if and only if nothing is said
    at the end of the transcript. -/
theorem stop_again_iff_silent (s : Session) (stop again : Occurrence)
    (hstop : stop.payload.event? = some .stop) (hagain : again.payload.event? = some .stop)
    (hsame : find? again.read s.transcriptPath = find? stop.read s.transcriptPath) :
    ∃ t u, Session.after (some s) [stop] = some t ∧
      Session.after (some s) [stop, again] = some u ∧
      (u = t ↔ IsSilent (find? stop.read s.transcriptPath)) ∧
      u = { t with
        timeline := t.timeline ++
          ((latestIn? (find? again.read s.transcriptPath) again.settings.maxResponse).map
            (TimelineEntry.response (Session.stamp again.now.localTime))).toList } := by
  let transcript := find? stop.read s.transcriptPath
  let t := s.answer stop.settings transcript stop.now.localTime
  let response := latestIn? transcript again.settings.maxResponse
  have hpath : t.transcriptPath = s.transcriptPath := Session.transcriptPath_respond s _ _
  have hfirst : Session.after (some s) [stop] = some t := Session.next_of_stop hstop s
  have hsecond : Session.next (some t) again =
      some (t.respond response again.now.localTime) := by
    rw [Session.next_of_stop hagain, hpath, hsame, Session.answer_answer]
  refine ⟨t, t.respond response again.now.localTime, hfirst, ?_, ?_, ?_⟩
  · rw [Session.after_cons, Session.next_of_stop hstop]
    exact hsecond
  · rw [Session.respond_eq_self_iff, latestIn?_eq_none_iff]
  · rw [hsame]
    exact Session.respond_eq t response again.now.localTime

/-- A session on a transcript, counted up to a stamp. -/
def countedToB : Session := .fresh .epoch "" "t" "" "b"

/-- An entry is counted by the first of two stops, and nothing is said in it. -/
theorem stop_again_of_usage :
    let stop := Occurrence.named "Stop" (some (usageLine "a" 1 ++ usageLine "c" 3))
    let again := { stop with now := .secondMinute }
    ∃ t, Session.after (some countedToB) [stop] = some t ∧
      Session.after (some countedToB) [stop, again] = some t ∧ t.tokens.input = 3 := by
  intro stop again
  obtain ⟨t, u, hfirst, hsecond, hsilent, -⟩ :=
    stop_again_iff_silent countedToB stop again rfl rfl rfl
  obtain rfl : u = t := hsilent.2 (by decide +kernel)
  have hcounted : ∀ t ∈ Session.after (some countedToB) [stop], t.tokens.input = 3 := by
    decide +kernel
  exact ⟨u, hfirst, hsecond, hcounted u hfirst⟩

/-- What is said before the first of two stops is recorded by both. -/
theorem not_idempotent_stop :
    let stop := Occurrence.named "Stop" (some cutLine)
    ∃ t ∈ Session.after (some countedToB) [stop],
      ∃ u ∈ Session.after (some countedToB) [stop, stop], u ≠ t ∧
        t.timeline = [.response "01-01 00:00" "ok"] ∧
        u.timeline = [.response "01-01 00:00" "ok", .response "01-01 00:00" "ok"] := by
  decide +kernel

end SessionLog
