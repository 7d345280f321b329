/-
  SessionLog/Proofs/Persistence.lean
  ==================================
  **A process for each event does what one machine in memory does.**

  All that a process hands on to the next one is the state file. As long as that file can
  be replaced and nobody else writes it, what is read from it after any number of events
  is the session that the machine in memory has open. Whether snapshots can be written
  plays no part.

  It is so exactly if no process is broken off. Only the end of a session can be: it has
  to tell the start of the session in UTC where nothing is counted, and that may not be
  in the calendar. The file then keeps the session, and in memory there is none. On a
  clock with one offset this does not happen.
-/
import SessionLog.Proofs.Closing

namespace SessionLog

open Transcript (startUtc?)

/-! ### Starts that can be told in UTC -/

namespace DateTime

@[simp] theorem isSome_settle? {date : Date} {second : Int} {nano : Nat}
    {h : nano < 2 * nanosPerSecond} :
    (settle? date second nano h).isSome = (date.addDays? (second / 86400)).isSome := by
  rw [settle?, Option.isSome_map]

/-- A time less than a day later or earlier is in the calendar if a clock that is so much
    ahead or behind can show the time. -/
theorem isSome_addSeconds? {t : DateTime} {n : Int} (hlow : -86400 < n)
    (h : (t.relabel? n).isSome = true) : (t.addSeconds? n).isSome = true := by
  have hsecond := t.time.second_lt
  rw [relabel?, isSome_settle?] at h
  rw [addSeconds?]
  split
  · rw [isSome_settle?]
    by_cases hneg : n < 0
    · have hday : ((t.time.second : Int) + 1 + n) / 86400 = 0 ∨
          ((t.time.second : Int) + 1 + n) / 86400 = ((t.time.second : Int) + n) / 86400 := by
        omega
      simp only [hneg, if_true]
      rcases hday with hday | hday
      · rw [hday]
        rfl
      · rw [hday]
        exact h
    · simp only [hneg, if_false, Int.add_zero]
      exact h
  · rw [isSome_settle?]
    exact h

end DateTime

/-- On a clock with one offset every start can be told in UTC. -/
theorem isSome_startUtc?_of_offset_eq {m later : Moment} (h : m.offset = later.offset) :
    (startUtc? m.localTime later.offset).isSome = true := by
  have hupper := later.offset.upper
  rw [startUtc?, ← h]
  apply DateTime.isSome_addSeconds? _ m.inCalendar
  rw [h]
  omega

/-! ### Visits that are broken off -/

namespace Visit

variable {layout : Layout} {v : Visit} {prior : Option Session}

/-- Nothing is broken off but the end of a session whose start cannot be told. -/
theorem finished_eq_false_iff (layout : Layout) (v : Visit) :
    (v.outcome layout).finished = false ↔
      v.payload.event? = some .sessionEnd ∧ v.LacksStart layout := by
  by_cases hend : v.payload.event? = some .sessionEnd
  · obtain ⟨source, htransition⟩ :=
      exists_source_of_sessionEnd hend (StateFile.read v.found layout.stateFile).1
    rw [← present?_sessionEnd_eq_none_iff hend rfl, outcome_eq rfl, committed, htransition]
    rcases hpresent : Handler.present? v.found layout v.settings v.now _ with
      _ | ⟨presented, told⟩
    · rw [Handler.commit_brokenOff hpresent]
      simp [hend]
    · rw [Handler.commit_ended hpresent]
      simp
  · have hmakes := v.occurrence.makes (StateFile.read v.found layout.stateFile).1
    have hfinished : (v.outcome layout).finished = true := by
      rw [outcome_eq rfl, committed]
      generalize v.occurrence.transition _ = transition at hmakes ⊢
      cases hmakes with
      | nothing => rw [Handler.commit_unchanged]
      | start | announce => rw [Handler.commit_stored]
      | prompt | useTool | finish | request | answer => rw [Handler.commit_shown]
      | finale source hevent => exact absurd hevent hend
    simp [hfinished, hend]

theorem tree_outcome_of_not_finished (h : (v.outcome layout).finished = false) :
    (v.outcome layout).tree = v.found := by
  obtain ⟨hend, hlacks⟩ := (finished_eq_false_iff layout v).1 h
  exact tree_outcome_of_lacksStart hend hlacks

theorem finished_of_isSome_startUtc?
    (hprior : (StateFile.read v.found layout.stateFile).1 = prior)
    (hstart : ∀ s ∈ prior, (startUtc? s.start v.now.offset).isSome = true) :
    (v.outcome layout).finished = true := by
  rw [← Bool.not_eq_false, finished_eq_false_iff]
  rintro ⟨-, s, hs, -, -, hnone⟩
  rw [hprior] at hs
  have htold := hstart s hs
  rw [hnone] at htold
  cases htold

theorem next_of_sessionEnd (hend : v.payload.event? = some .sessionEnd)
    (prior : Option Session) : Session.next prior v.occurrence = none := by
  obtain ⟨source, htransition⟩ := exists_source_of_sessionEnd hend prior
  rw [Session.next, htransition]
  rfl

/-- The next session is read after a visit exactly if it comes to its end. One that is
    broken off leaves the session that has ended. -/
theorem read_outcome_iff {p : DateTime → Prop} (hp : ∀ t, p t → t.time.LeapEndsMinute)
    (hprior : (StateFile.read v.found layout.stateFile).1 = prior)
    (hkept : ∀ s ∈ prior, s.IsKept p) (hnow : p v.now.localTime)
    (hstored : .stateNotStored ∉ (v.outcome layout).journal)
    (hcleared : .stateNotCleared ∉ (v.outcome layout).journal) :
    (StateFile.read (v.outcome layout).tree layout.stateFile).1 =
        Session.next prior v.occurrence ↔
      (v.outcome layout).finished = true := by
  constructor
  · intro hread
    rw [← Bool.not_eq_false]
    intro hbroken
    obtain ⟨hend, s, hs, -⟩ := (finished_eq_false_iff layout v).1 hbroken
    rw [tree_outcome_of_not_finished hbroken, next_of_sessionEnd hend] at hread
    rw [hread] at hs
    cases hs
  · intro hfinished
    exact read_outcome hp hprior hkept hnow hfinished hstored hcleared

end Visit

/-! ### Runs of visits -/

theorem Session.isKept_next {p : DateTime → Prop} {prior : Option Session}
    (hprior : ∀ s ∈ prior, s.IsKept p) {o : Occurrence} (hnow : p o.now.localTime) :
    ∀ s ∈ Session.next prior o, s.IsKept p :=
  forall_next hprior ((o.makes prior).isKept hprior hnow)

namespace Visit

variable {layout : Layout}

/-- After every event of the run, and before the first one, the session in the state file
    is the one that the machine in memory has open. -/
def Agrees (layout : Layout) (tree : FileTree) (prior : Option Session) (run : List Visit) :
    Prop :=
  ∀ before, before <+: run →
    (StateFile.read (filesAfter layout tree before) layout.stateFile).1 =
      Session.after prior (before.map occurrence)

theorem agrees_nil {tree : FileTree} {prior : Option Session} :
    Agrees layout tree prior [] ↔ (StateFile.read tree layout.stateFile).1 = prior := by
  simp [Agrees, filesAfter, Session.after]

theorem agrees_cons {tree : FileTree} {prior : Option Session} {v : Visit} {run : List Visit} :
    Agrees layout tree prior (v :: run) ↔
      (StateFile.read tree layout.stateFile).1 = prior ∧
        Agrees layout (v.outcome layout).tree (Session.next prior v.occurrence) run := by
  rw [← agrees_nil]
  constructor
  · intro h
    refine ⟨fun before hbefore => h before (hbefore.trans List.nil_prefix), ?_⟩
    intro before hbefore
    exact h (v :: before) (List.cons_prefix_cons.2 ⟨rfl, hbefore⟩)
  · rintro ⟨hprior, hrest⟩ before hbefore
    rcases List.prefix_cons_iff.1 hbefore with rfl | ⟨rest, rfl, hprefix⟩
    · exact hprior [] List.nil_prefix
    · exact hrest rest hprefix

theorem Agrees.last {tree : FileTree} {prior : Option Session} {run : List Visit}
    (h : Agrees layout tree prior run) :
    (StateFile.read (filesAfter layout tree run) layout.stateFile).1 =
      Session.after prior (run.map occurrence) :=
  h run List.prefix_rfl

theorem read_found {tree : FileTree} {v : Visit} {prior : Option Session}
    (hfound : ∀ path, path = layout.stateFile → v.found.read? path = tree.read? path)
    (hprior : (StateFile.read tree layout.stateFile).1 = prior) :
    (StateFile.read v.found layout.stateFile).1 = prior := by
  rw [StateFile.read, hfound _ rfl]
  exact hprior

/-- From any session on. The induction is on the run: what is read after a visit that comes
    to its end is the next session, and it is what the next visit finds. -/
theorem agrees_iff_finished {tree : FileTree} {prior : Option Session} {run : List Visit}
    (hprior : (StateFile.read tree layout.stateFile).1 = prior)
    (hkept : ∀ s ∈ prior, s.IsKept fun t => t.time.LeapEndsMinute)
    (hrun : Undisturbed layout (fun path => path = layout.stateFile) tree run)
    (hreplaced : ∀ v ∈ run, .stateNotStored ∉ (v.outcome layout).journal ∧
      .stateNotCleared ∉ (v.outcome layout).journal) :
    Agrees layout tree prior run ↔ ∀ v ∈ run, (v.outcome layout).finished = true := by
  induction run generalizing tree prior with
  | nil =>
    rw [agrees_nil]
    exact iff_of_true hprior fun v hv => (List.not_mem_nil hv).elim
  | cons v run ih =>
    obtain ⟨hfound, hrest⟩ := hrun
    rw [List.forall_mem_cons] at hreplaced
    have hread := read_found hfound hprior
    have hnow := v.now.leapEndsMinute
    have hstep := read_outcome_iff (fun _ h => h) hread hkept hnow hreplaced.1.1 hreplaced.1.2
    have hkept' := Session.isKept_next hkept (o := v.occurrence) hnow
    rw [agrees_cons, List.forall_mem_cons, ← hstep]
    constructor
    · rintro ⟨-, hagrees⟩
      have hnext := agrees_nil.1 fun before hbefore =>
        hagrees before (hbefore.trans List.nil_prefix)
      exact ⟨hnext, (ih hnext hkept' hrest hreplaced.2).1 hagrees⟩
    · rintro ⟨hnext, hfinished⟩
      exact ⟨hprior, (ih hnext hkept' hrest hreplaced.2).2 hfinished⟩

/-- From any session on. Where the starts of all sessions can be told in UTC, a visit comes
    to its end, and so it leaves a session of the same kind to the next one. -/
theorem finished_of_prior {p : DateTime → Prop}
    (hp : ∀ t, p t → t.time.LeapEndsMinute) {tree : FileTree} {prior : Option Session}
    {run : List Visit} (hprior : (StateFile.read tree layout.stateFile).1 = prior)
    (hkept : ∀ s ∈ prior, s.IsKept p)
    (hrun : Undisturbed layout (fun path => path = layout.stateFile) tree run)
    (hnow : ∀ v ∈ run, p v.now.localTime)
    (hstart : ∀ v ∈ run, ∀ t, p t → (startUtc? t v.now.offset).isSome = true)
    (hreplaced : ∀ v ∈ run, .stateNotStored ∉ (v.outcome layout).journal ∧
      .stateNotCleared ∉ (v.outcome layout).journal) :
    ∀ v ∈ run, (v.outcome layout).finished = true := by
  induction run generalizing tree prior with
  | nil => exact fun v hv => (List.not_mem_nil hv).elim
  | cons v run ih =>
    obtain ⟨hfound, hrest⟩ := hrun
    rw [List.forall_mem_cons] at hnow hstart hreplaced ⊢
    have hread := read_found hfound hprior
    have hfinished := finished_of_isSome_startUtc? hread fun s hs =>
      hstart.1 _ (hkept s hs).times.start
    have hnext := read_outcome hp hread hkept hnow.1 hfinished hreplaced.1.1 hreplaced.1.2
    have hkept' : ∀ s ∈ Session.next prior v.occurrence, s.IsKept p :=
      Session.isKept_next hkept hnow.1
    exact ⟨hfinished, ih hnext hkept' hrest hnow.2 hstart.2 hreplaced.2⟩

end Visit

/-- Where no session is kept at first, and in every visit of a run the state file is found
    as it was left and can be replaced, the state file has after every visit the session
    that the machine in memory has open, exactly if each visit comes to its end. One that
    does not is the end of a session that has nothing counted and a transcript, and whose
    start cannot be told in UTC by the clock of the visit; it leaves the files as they are.
    There is none of these as long as each time of the run can be told in UTC by the clock
    of each visit, as on a clock with one offset. -/
theorem read_after_visits (layout : Layout) (tree : FileTree) (run : List Visit)
    (hnone : (StateFile.read tree layout.stateFile).1 = none)
    (hrun : Visit.Undisturbed layout (fun path => path = layout.stateFile) tree run)
    (hreplaced : ∀ v ∈ run, .stateNotStored ∉ (v.outcome layout).journal ∧
      .stateNotCleared ∉ (v.outcome layout).journal) :
    (Visit.Agrees layout tree none run ↔ ∀ v ∈ run, (v.outcome layout).finished = true) ∧
    (∀ v ∈ run, ((v.outcome layout).finished = false ↔
        v.payload.event? = some .sessionEnd ∧ v.LacksStart layout) ∧
      ((v.outcome layout).finished = false → (v.outcome layout).tree = v.found)) ∧
    ((∀ v ∈ run, ∀ w ∈ run, (startUtc? v.now.localTime w.now.offset).isSome = true) →
      ∀ v ∈ run, (v.outcome layout).finished = true) ∧
    ((∀ v ∈ run, ∀ w ∈ run, v.now.offset = w.now.offset) →
      ∀ v ∈ run, (v.outcome layout).finished = true) := by
  have hclock : (∀ v ∈ run, ∀ w ∈ run,
      (startUtc? v.now.localTime w.now.offset).isSome = true) →
      ∀ v ∈ run, (v.outcome layout).finished = true := by
    intro hclock
    let p (t : DateTime) : Prop := t.time.LeapEndsMinute ∧
      ∀ w ∈ run, (startUtc? t w.now.offset).isSome = true
    have hp : ∀ t, p t → t.time.LeapEndsMinute := fun t ht => ht.1
    apply Visit.finished_of_prior hp hnone (forall_mem_none _) hrun
    · intro v hv
      exact ⟨v.now.leapEndsMinute, hclock v hv⟩
    · intro v hv t ht
      exact ht.2 v hv
    · exact hreplaced
  refine ⟨?_, fun v _ => ⟨?_, ?_⟩, hclock, ?_⟩
  · exact Visit.agrees_iff_finished hnone (forall_mem_none _) hrun hreplaced
  · exact Visit.finished_eq_false_iff layout v
  · exact Visit.tree_outcome_of_not_finished
  · intro hoffset
    exact hclock fun v hv w hw => isSome_startUtc?_of_offset_eq (hoffset v hv w hw)

/-- A session is started and stopped where there are no files yet. -/
def startAndStop : List Visit :=
  Visit.consecutive ⟨"/p"⟩ .bare
    [(.named "SessionStart", .default, .epoch), (.named "Stop", .default, .epoch)]

theorem read_after_start_and_stop :
    Visit.Agrees ⟨"/p"⟩ .bare none startAndStop ∧
      (StateFile.read (Visit.filesAfter ⟨"/p"⟩ .bare startAndStop)
        (Layout.stateFile ⟨"/p"⟩)).1 = Session.after none (startAndStop.map Visit.occurrence) ∧
      (Session.after none (startAndStop.map Visit.occurrence)).isSome = true := by
  obtain ⟨hagrees, -, -, hoffset⟩ := read_after_visits ⟨"/p"⟩ .bare startAndStop
    (by decide +kernel) (Visit.undisturbed_consecutive _ _ _ _) (by decide +kernel)
  have hsame : ∀ v ∈ startAndStop, ∀ w ∈ startAndStop, v.now.offset = w.now.offset := by
    decide +kernel
  have hall := hagrees.2 (hoffset hsame)
  exact ⟨hall, hall.last, by decide +kernel⟩

/-- A session starts when the calendar does, by a clock that shows UTC. -/
def startOfFirst : Payload × Settings × Moment :=
  ({ Payload.named "SessionStart" with transcriptPath := some "t" }, .default,
    ⟨firstSession.start, .utc, by decide, by decide⟩)

/-- It ends by a clock two hours ahead. Nothing is in its transcript. -/
def startAndEndOfFirst : List Visit :=
  Visit.consecutive ⟨"/p"⟩ (FileTree.bare.write "t" []).1
    [startOfFirst, (.named "SessionEnd", .default, endOfFirst.now)]

theorem not_read_after_end_of_first :
    (StateFile.read (FileTree.bare.write "t" []).1 (Layout.stateFile ⟨"/p"⟩)).1 = none ∧
      Visit.Undisturbed ⟨"/p"⟩ (fun path => path = Layout.stateFile ⟨"/p"⟩)
        (FileTree.bare.write "t" []).1 startAndEndOfFirst ∧
      (∀ v ∈ startAndEndOfFirst, StateFile.Replaceable v.found (Layout.stateFile ⟨"/p"⟩)) ∧
      Session.after none (startAndEndOfFirst.map Visit.occurrence) = none ∧
      (StateFile.read (Visit.filesAfter ⟨"/p"⟩ (FileTree.bare.write "t" []).1 startAndEndOfFirst)
        (Layout.stateFile ⟨"/p"⟩)).1.isSome = true := by
  refine ⟨by decide +kernel, Visit.undisturbed_consecutive _ _ _ _, ?_, by decide +kernel,
    by decide +kernel⟩
  have hfaults : ∀ v ∈ startAndEndOfFirst, v.found.faults = [] := by decide +kernel
  have hcleared : ∀ v ∈ startAndEndOfFirst,
      (StateFile.clear v.found (Layout.stateFile ⟨"/p"⟩)).2 = .ok () := by decide +kernel
  intro v hv
  exact StateFile.replaceable_of_clear (hfaults v hv) (hcleared v hv)

end SessionLog
