/-
  SessionLog/Proofs/Session/Chronology.lean
  =========================================
  **A timeline is in order but for tools that are recorded late.**

  An entry is dated at the event that adds it. Only the entry of a tool that was announced is
  dated back to the announcement, and it goes behind all that has been recorded since. Where
  one of these entries has a later stamp, the timeline is out of order, in spite of what the
  schema says of it. Nothing else puts a timeline out of order in a run within one year in
  which time does not go back.
-/
import SessionLog.Proofs.Session.Announcement
import SessionLog.Proofs.Session.Uses
import SessionLog.Proofs.Transcript.HostTime

namespace SessionLog

open Text

/-! ### Stamps -/

namespace DateTime

theorem minuteText_lt_iff {a b : DateTime} :
    a.minuteText < b.minuteText ↔
      a.date.month < b.date.month ∨ (a.date.month = b.date.month ∧
        (a.date.day < b.date.day ∨ (a.date.day = b.date.day ∧
          (a.time.hour < b.time.hour ∨ (a.time.hour = b.time.hour ∧
            a.time.minute < b.time.minute))))) := by
  have hminute : padded 2 a.time.minute < padded 2 b.time.minute ↔
      a.time.minute < b.time.minute := by
    have ha : a.time.minute < 10 ^ 2 := Nat.lt_trans a.time.minute_lt (by decide)
    have hb : b.time.minute < 10 ^ 2 := Nat.lt_trans b.time.minute_lt (by decide)
    have hlt := padded_lt_padded_iff (by decide) ha hb [] []
    simpa only [List.append_nil, List.lt_irrefl, and_false, or_false] using hlt
  rw [minuteText, minuteText,
    padded_cons_lt_iff (by decide) (month_lt _) (month_lt _),
    padded_cons_lt_iff (by decide) (day_lt _) (day_lt _),
    padded_cons_lt_iff (by decide) (Nat.lt_trans a.time.hour_lt (by decide))
      (Nat.lt_trans b.time.hour_lt (by decide)), hminute]

/-- Within a year, a time with a smaller stamp is before the other. -/
theorem before_of_minuteText_lt {a b : DateTime} (hyear : a.date.year = b.date.year)
    (h : a.minuteText < b.minuteText) : a.Before b := by
  rw [minuteText_lt_iff] at h
  rw [before_iff, Date.dayNumber_lt_iff, Date.eq_iff]
  simp only [TimeOfDay.hour, TimeOfDay.minute] at h
  omega

end DateTime

namespace Session

theorem stamp_le_stamp {a b : DateTime} (hyear : a.date.year = b.date.year)
    (h : ¬b.Before a) : stamp a ≤ stamp b := by
  rw [← String.not_lt, String.lt_iff, stamp, stamp, String.toList_ofList, String.toList_ofList]
  exact fun hlt => h (DateTime.before_of_minuteText_lt hyear.symm hlt)

end Session

/-! ### What an event does to the timeline -/

/-- The timeline of the session before, or an empty one. -/
def CarriesOver (prior : Option Session) (timeline : List TimelineEntry) : Prop :=
  timeline = [] ∨ ∃ s ∈ prior, timeline = s.timeline

namespace CarriesOver

theorem started (prior : Option Session) (trigger : String) (payload : Payload)
    (now : Moment) : CarriesOver prior (Session.started prior trigger payload now).timeline := by
  rcases Session.started_cases prior trigger payload now with h | ⟨s, hs, h⟩
  · rw [h]
    exact Or.inl rfl
  · rw [h]
    exact Or.inr ⟨s, hs, rfl⟩

theorem prompted (prior : Option Session) (payload : Payload) (now : Moment) :
    CarriesOver prior (Session.prompted prior payload now).timeline := by
  rcases Session.prompted_cases prior payload now with h | ⟨s, hs, h⟩
  · rw [h]
    exact Or.inl rfl
  · rw [h]
    exact Or.inr ⟨s, hs, rfl⟩

end CarriesOver

namespace Occurrence

/-- The timelines that an event can leave, by the date of the entry that it adds. -/
inductive Leaves (prior : Option Session) (o : Occurrence) : List TimelineEntry → Prop
  | kept (timeline : List TimelineEntry) : CarriesOver prior timeline → Leaves prior o timeline
  | dated (timeline : List TimelineEntry) (entry : TimelineEntry) : CarriesOver prior timeline →
      entry.ts = Session.stamp o.now.localTime → Leaves prior o (timeline ++ [entry])
  | datedBack (s : Session) (u : ToolUse) (announcement : PendingTool) (entry : TimelineEntry) :
      s ∈ prior → u ∈ o.use? → announcement ∈ s.pendingTool → announcement.name = u.tool →
      entry.ts = Session.stamp announcement.time → Leaves prior o (s.timeline ++ [entry])

variable {prior : Option Session} {o : Occurrence} {made : Transition}

theorem leaves_useTool {s : Session} {tool : String} {input : Json} {response : Option Json}
    (hs : s ∈ prior) (huse : o.use? = some ⟨tool, input, response⟩) :
    o.Leaves prior (s.useTool tool input response o.now.localTime).timeline := by
  rw [Session.timeline_useTool]
  by_cases h : ∃ announcement ∈ s.pendingTool, announcement.name = tool
  · obtain ⟨announcement, hannouncement, hname⟩ := h
    refine .datedBack s _ announcement _ hs huse hannouncement hname ?_
    rw [Session.toolEntry, Session.announced_of_name_eq hannouncement hname]
    rfl
  · refine .dated _ _ (Or.inr ⟨s, hs, rfl⟩) ?_
    rw [Session.toolEntry, Session.announced_of_name_ne fun announcement hannouncement hname =>
      h ⟨announcement, hannouncement, hname⟩]
    rfl

/-- The cases are what an event can do. -/
theorem Makes.leaves (h : o.Makes prior made) :
    ∀ t ∈ made.session, o.Leaves prior t.timeline := by
  intro t ht
  cases h with
  | nothing | finale => exact .kept _ (Or.inr ⟨t, ht, rfl⟩)
  | start trigger =>
    cases ht
    exact .kept _ (.started prior trigger o.payload o.now)
  | prompt text =>
    cases ht
    exact .dated _ _ (.prompted prior o.payload o.now) rfl
  | announce s tool input hs =>
    cases ht
    exact .kept _ (Or.inr ⟨s, hs, rfl⟩)
  | useTool s tool input response hs hevent hrecords =>
    cases ht
    exact leaves_useTool hs (use?_eq_some_iff.2 ⟨hevent, hrecords⟩)
  | finish s pending hs | request s tool input hs =>
    cases ht
    exact .dated _ _ (Or.inr ⟨s, hs, rfl⟩) rfl
  | answer s hs =>
    cases ht
    have hrespond (response : Option String) :
        o.Leaves prior (s.respond response o.now.localTime).timeline := by
      cases response with
      | none => exact .kept _ (Or.inr ⟨s, hs, rfl⟩)
      | some text => exact .dated _ _ (Or.inr ⟨s, hs, rfl⟩) rfl
    exact hrespond _

end Occurrence

/-! ### Timelines in order -/

/-- No entry has a later stamp than one behind it. -/
def IsChronological (timeline : List TimelineEntry) : Prop :=
  timeline.Pairwise fun earlier later => earlier.ts ≤ later.ts

instance (timeline : List TimelineEntry) : Decidable (IsChronological timeline) :=
  inferInstanceAs (Decidable (timeline.Pairwise _))

theorem isChronological_concat {timeline : List TimelineEntry} {entry : TimelineEntry} :
    IsChronological (timeline ++ [entry]) ↔
      IsChronological timeline ∧ ∀ earlier ∈ timeline, earlier.ts ≤ entry.ts := by
  rw [IsChronological, List.pairwise_append]
  constructor
  · rintro ⟨hchronological, -, hle⟩
    exact ⟨hchronological, fun earlier hearlier => hle earlier hearlier entry (by simp)⟩
  · rintro ⟨hchronological, hle⟩
    refine ⟨hchronological, List.pairwise_singleton _ _, fun earlier hearlier later hlater => ?_⟩
    rw [List.mem_singleton.1 hlater]
    exact hle earlier hearlier

/-- No stamp is later, of an entry or of another time in the session. -/
structure Session.IsDatedBy (latest : String) (s : Session) : Prop where
  kept : s.IsKept fun t => Session.stamp t ≤ latest
  timeline : ∀ entry ∈ s.timeline, entry.ts ≤ latest

namespace CarriesOver

variable {prior : Option Session} {timeline : List TimelineEntry}

theorem ts_le {latest : String} (h : CarriesOver prior timeline)
    (hprior : ∀ s ∈ prior, s.IsDatedBy latest) : ∀ entry ∈ timeline, entry.ts ≤ latest := by
  rcases h with rfl | ⟨s, hs, rfl⟩
  · exact List.forall_mem_nil _
  · exact (hprior s hs).timeline

theorem isChronological (h : CarriesOver prior timeline)
    (hprior : ∀ s ∈ prior, IsChronological s.timeline) : IsChronological timeline := by
  rcases h with rfl | ⟨s, hs, rfl⟩
  · exact List.Pairwise.nil
  · exact hprior s hs

end CarriesOver

namespace Occurrence

/-- If the event is the use of a tool that was announced, nothing that has been recorded has a
    later stamp than the announcement. -/
def IsPunctual (prior : Option Session) (o : Occurrence) : Prop :=
  ∀ s ∈ prior, ∀ u ∈ o.use?, ∀ announcement ∈ s.pendingTool, announcement.name = u.tool →
    ∀ entry ∈ s.timeline, entry.ts ≤ Session.stamp announcement.time

instance (prior : Option Session) (o : Occurrence) : Decidable (o.IsPunctual prior) :=
  inferInstanceAs (Decidable (∀ s ∈ prior, ∀ u ∈ o.use?, ∀ announcement ∈ s.pendingTool,
    announcement.name = u.tool → ∀ entry ∈ s.timeline, _ ≤ _))

variable {prior : Option Session} {o : Occurrence} {made : Transition} {latest : String}

theorem Makes.isDatedBy (h : o.Makes prior made) (hprior : ∀ s ∈ prior, s.IsDatedBy latest)
    (hnow : Session.stamp o.now.localTime ≤ latest) :
    ∀ t ∈ made.session, t.IsDatedBy latest := by
  intro t ht
  refine ⟨h.isKept (fun s hs => (hprior s hs).kept) hnow t ht, ?_⟩
  have hleaves := h.leaves t ht
  generalize t.timeline = timeline at hleaves ⊢
  cases hleaves with
  | kept _ hover => exact hover.ts_le hprior
  | dated kept entry hover hstamp =>
    rw [List.forall_mem_append, List.forall_mem_singleton, hstamp]
    exact ⟨hover.ts_le hprior, hnow⟩
  | datedBack s u announcement entry hs _ hannouncement _ hstamp =>
    rw [List.forall_mem_append, List.forall_mem_singleton, hstamp]
    exact ⟨(hprior s hs).timeline,
      (hprior s hs).kept.times.pendingTool announcement hannouncement⟩

theorem Makes.isChronological (h : o.Makes prior made)
    (hdated : ∀ s ∈ prior, s.IsDatedBy (Session.stamp o.now.localTime))
    (hprior : ∀ s ∈ prior, IsChronological s.timeline) (hpunctual : o.IsPunctual prior) :
    ∀ t ∈ made.session, IsChronological t.timeline := by
  intro t ht
  have hleaves := h.leaves t ht
  generalize t.timeline = timeline at hleaves ⊢
  cases hleaves with
  | kept _ hover => exact hover.isChronological hprior
  | dated kept entry hover hstamp =>
    rw [isChronological_concat, hstamp]
    exact ⟨hover.isChronological hprior, hover.ts_le hdated⟩
  | datedBack s u announcement entry hs hu hannouncement hname hstamp =>
    rw [isChronological_concat, hstamp]
    exact ⟨hprior s hs, hpunctual s hs u hu announcement hannouncement hname⟩

/-- The entry of a tool that was announced goes behind all that has been recorded. -/
theorem isPunctual_of_next (h : ∀ t ∈ Session.next prior o, IsChronological t.timeline) :
    o.IsPunctual prior := by
  rintro s rfl u hu announcement hannouncement hname
  have hnext := Session.next_of_use? hu s
  have hchronological := h _ hnext
  rw [Session.timeline_useTool, isChronological_concat, Session.toolEntry,
    Session.announced_of_name_eq hannouncement hname] at hchronological
  exact hchronological.2

end Occurrence

/-! ### Runs in one year -/

/-- No time of a run is before an earlier one, and all are in one year. -/
structure IsSteady (run : List Occurrence) : Prop where
  order : run.Pairwise fun o later => ¬later.now.localTime.Before o.now.localTime
  year : run.Pairwise fun o later => o.now.localTime.date.year = later.now.localTime.date.year

theorem IsSteady.of_prefix {before run : List Occurrence} (h : IsSteady run)
    (hbefore : before <+: run) : IsSteady before :=
  ⟨h.order.sublist hbefore.sublist, h.year.sublist hbefore.sublist⟩

namespace Session

theorem isDatedBy_after {run : List Occurrence} {latest : String}
    (h : ∀ o ∈ run, stamp o.now.localTime ≤ latest) :
    ∀ s ∈ after none run, s.IsDatedBy latest :=
  forall_after (fun _ o ho _ hmakes hprior => hmakes.isDatedBy hprior (h o ho)) (forall_mem_none _)

/-- The last event of a run is dated no earlier than the others. -/
theorem stamp_le_of_isSteady {run : List Occurrence} {o : Occurrence}
    (h : IsSteady (run ++ [o])) :
    ∀ earlier ∈ run, stamp earlier.now.localTime ≤ stamp o.now.localTime := by
  intro earlier hearlier
  have hlast : o ∈ [o] := List.mem_singleton_self o
  exact stamp_le_stamp ((List.pairwise_append.1 h.year).2.2 earlier hearlier o hlast)
    ((List.pairwise_append.1 h.order).2.2 earlier hearlier o hlast)

theorem isChronological_next_iff {run : List Occurrence} {o : Occurrence}
    (hsteady : IsSteady (run ++ [o]))
    (hprior : ∀ s ∈ after none run, IsChronological s.timeline) :
    (∀ t ∈ next (after none run) o, IsChronological t.timeline) ↔
      o.IsPunctual (after none run) := by
  have hdated := isDatedBy_after (stamp_le_of_isSteady hsteady)
  exact ⟨Occurrence.isPunctual_of_next, fun hpunctual =>
    forall_next hprior ((o.makes _).isChronological hdated hprior hpunctual)⟩

end Session

/-- In a run within one year in which time does not go back, the timelines of all sessions are
    in order if and only if no tool that was announced is recorded behind a later stamp.

    The induction is on the run, from its end: an event that is punctual keeps a timeline in
    order, and any other one does not. -/
theorem chronological_iff_punctual (run : List Occurrence) (hsteady : IsSteady run) :
    (∀ before, before <+: run → ∀ s ∈ Session.after none before, IsChronological s.timeline) ↔
      ∀ event ∈ Session.history none run, event.2.IsPunctual event.1 := by
  induction run using List.reverseRecOn with
  | nil =>
    constructor
    · intro _ event hevent
      cases hevent
    · intro _ before hbefore
      rw [List.prefix_nil.1 hbefore]
      exact forall_mem_none _
  | append_singleton run o ih =>
    have hprefix : run <+: run ++ [o] := List.prefix_append run [o]
    have hrun := ih (hsteady.of_prefix hprefix)
    rw [Session.history_concat, List.forall_mem_append, List.forall_mem_singleton]
    constructor
    · intro h
      refine ⟨hrun.1 fun before hbefore => h before (hbefore.trans hprefix), ?_⟩
      rw [← Session.isChronological_next_iff hsteady (h run hprefix), ← Session.after_concat]
      exact h (run ++ [o]) List.prefix_rfl
    · rintro ⟨hpunctual, hlast⟩ before hbefore
      have hin := hrun.2 hpunctual
      rcases List.prefix_concat_iff.1 hbefore with rfl | hbefore
      · rw [Session.after_concat]
        exact (Session.isChronological_next_iff hsteady (hin run List.prefix_rfl)).2 hlast
      · exact hin before hbefore

/-- A tool is announced, and in the next minute it is used; so is another one, in the minute in
    which it was announced and with a prompt in between. -/
def punctualTools : List Occurrence :=
  [.named "SessionStart" none, .named "UserPromptSubmit" none,
    .ofTool "PreToolUse" "Write" none none,
    { Occurrence.ofTool "PostToolUse" "Write" none none with now := .secondMinute },
    { Occurrence.ofTool "PreToolUse" "Edit" none none with now := .secondMinute },
    { Occurrence.named "UserPromptSubmit" none with now := .secondMinute },
    { Occurrence.ofTool "PostToolUse" "Edit" none none with now := .secondMinute }]

theorem chronological_of_punctualTools :
    ∃ s, Session.after none punctualTools = some s ∧ s.timeline.length = 4 ∧
      IsChronological s.timeline := by
  have hsteady : IsSteady punctualTools := ⟨by decide +kernel, by decide +kernel⟩
  have hpunctual : ∀ event ∈ Session.history none punctualTools, event.2.IsPunctual event.1 := by
    decide +kernel
  obtain ⟨s, hopen, hlength⟩ : ∃ s ∈ Session.after none punctualTools, s.timeline.length = 4 := by
    decide +kernel
  exact ⟨s, hopen, hlength,
    (chronological_iff_punctual punctualTools hsteady).2 hpunctual punctualTools List.prefix_rfl
      s hopen⟩

/-- A tool is announced, and a minute later there is a request for it before it is used. -/
def lateTool : List Occurrence :=
  [.named "SessionStart" none, .ofTool "PreToolUse" "Write" none none,
    { Occurrence.ofTool "PermissionRequest" "Write" none none with now := .secondMinute },
    { Occurrence.ofTool "PostToolUse" "Write" none none with now := .secondMinute }]

/-- The schema calls a timeline chronological. This one is not. -/
theorem not_chronological_lateTool :
    IsSteady lateTool ∧ ∃ s ∈ Session.after none lateTool,
      s.timeline.map TimelineEntry.ts = ["01-01 00:01", "01-01 00:00"] ∧
      ¬IsChronological s.timeline := by
  refine ⟨⟨by decide +kernel, by decide +kernel⟩, ?_⟩
  decide +kernel

end SessionLog
