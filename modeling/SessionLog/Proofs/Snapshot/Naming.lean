/-
  SessionLog/Proofs/Snapshot/Naming.lean
  ======================================
  **Snapshots have names of their own in the log directory.**

  A snapshot is named after the minute in which its session starts and the fragment of its
  transcript. The fragment is never empty and has neither slashes nor dashes, so the name is
  that of a file in the log directory, and none of the other files there has it. The parts
  of a name can be read off it: whatever the width and the sign of the year, a dash ends it,
  and the other numbers have two digits. So two snapshots of a project have one path only if
  their sessions start in the same minute and have the same fragment.
-/
import Mathlib.Data.List.TakeWhile
import SessionLog.Proofs.Calendar.Text
import SessionLog.Proofs.Layout
import SessionLog.Proofs.Machine

namespace SessionLog

open Text
open FileTree (IsPlain)

/-! ### Fragments -/

theorem fragment_ne_empty (transcriptPath : String) : sessionFragment transcriptPath ≠ "" := by
  rw [sessionFragment]
  split
  · decide
  · split
    · decide
    · rename_i hne
      rw [Ne, ← String.toList_eq_nil_iff, String.toList_ofList]
      exact hne

theorem dash_not_mem_fragment (transcriptPath : String) :
    '-' ∉ (sessionFragment transcriptPath).toList := by
  rw [sessionFragment]
  split
  · decide
  · split
    · decide
    · rw [String.toList_ofList]
      intro hdash
      simpa using List.mem_takeWhile_imp hdash

/-! ### Names -/

/-- The same minute of the same day. -/
structure SameMinute (a b : DateTime) : Prop where
  year : a.date.year = b.date.year
  month : a.date.month = b.date.month
  day : a.date.day = b.date.day
  hour : a.time.hour = b.time.hour
  minute : a.time.minute = b.time.minute

namespace Snapshot

/-- A name is read from the left: a dash ends the year, and all other numbers have one width. -/
theorem name_eq_name_iff {s t : Session} :
    name s = name t ↔ SameMinute s.start t.start ∧
      sessionFragment s.transcriptPath = sessionFragment t.transcriptPath := by
  constructor
  · intro h
    have hlist := congrArg String.toList h
    have htwo {n : Nat} (hn : n < 100) : n < 10 ^ 2 := hn
    have hhour (t : TimeOfDay) : t.hour < 100 := Nat.lt_trans t.hour_lt (by decide)
    have hminute (t : TimeOfDay) : t.minute < 100 := Nat.lt_trans t.minute_lt (by decide)
    rw [toList_name, toList_name, List.append_left_inj] at hlist
    simp only [Date.text, DateTime.hourMinuteText, List.append_assoc, List.cons_append] at hlist
    -- each number is taken off the front, with the dash behind it if there is one
    obtain ⟨hyear, hlist⟩ := DateTime.yearText_append_inj (.cons rfl _) (.cons rfl _) hlist
    obtain ⟨hmonth, hlist⟩ := padded_append_inj (by decide) (htwo (DateTime.month_lt _))
      (htwo (DateTime.month_lt _)) (List.cons.inj hlist).2
    obtain ⟨hday, hlist⟩ := padded_append_inj (by decide) (htwo (DateTime.day_lt _))
      (htwo (DateTime.day_lt _)) (List.cons.inj hlist).2
    obtain ⟨hhours, hlist⟩ := padded_append_inj (by decide) (htwo (hhour _)) (htwo (hhour _))
      (List.cons.inj hlist).2
    obtain ⟨hminutes, hlist⟩ := padded_append_inj (by decide) (htwo (hminute _))
      (htwo (hminute _)) hlist
    exact ⟨⟨hyear, hmonth, hday, hhours, hminutes⟩, String.toList_inj.1 (List.cons.inj hlist).2⟩
  · rintro ⟨⟨hyear, hmonth, hday, hhour, hminute⟩, hfragment⟩
    simp only [name, Date.text, DateTime.hourMinuteText, hyear, hmonth, hday, hhour, hminute,
      hfragment]

/-- A name begins with the year. -/
theorem head?_name (s : Session) :
    ∃ c, (name s).toList.head? = some c ∧ (isDigit c = true ∨ c = '-' ∨ c = '+') := by
  have hyear (year : Int) (rest : List Char) : ∃ c, (yearText year ++ rest).head? = some c ∧
      (isDigit c = true ∨ c = '-' ∨ c = '+') := by
    rw [yearText]
    split
    · obtain ⟨c, ds, hds⟩ := List.exists_cons_of_ne_nil (padded_ne_nil 4 year.toNat)
      have hdigit := allDigits_padded 4 year.toNat c (hds ▸ List.mem_cons_self)
      rw [hds]
      exact ⟨c, rfl, Or.inl hdigit⟩
    · refine ⟨_, rfl, Or.inr ?_⟩
      split
      · exact Or.inl rfl
      · exact Or.inr rfl
  rw [toList_name, Date.text, List.append_assoc, List.append_assoc]
  exact hyear _ _

end Snapshot

/-! ### Paths -/

/-- A slash divides the names of a path. -/
theorem Path.names_slash (front back : String) :
    names (front ++ "/" ++ back).toList = names front.toList ++ names back.toList := by
  have htext : (front ++ "/" ++ back).toList = front.toList ++ '/' :: back.toList := by
    rw [String.toList_append, String.toList_append, List.append_assoc]
    rfl
  rw [names, htext, split_append, List.filter_append]
  rfl

theorem Path.names_of_isPlain {name : String} (hname : IsPlain name.toList) :
    names name.toList = [name.toList] := by
  rw [names, split_of_not_mem hname.no_slash]
  simp [hname.ne_nil, hname.ne_dot]

/-- What has a plain name in a directory has one name more than the directory. -/
theorem Path.names_below (directory : String) {name : String} (hname : IsPlain name.toList) :
    names (directory ++ "/" ++ name).toList = names directory.toList ++ [name.toList] := by
  rw [names_slash, names_of_isPlain hname]

/-- Plain names in a directory are told apart by the names of their paths. -/
theorem Path.names_below_inj {directory name other : String} (hname : IsPlain name.toList)
    (hother : IsPlain other.toList) :
    names (directory ++ "/" ++ name).toList = names (directory ++ "/" ++ other).toList ↔
      name = other := by
  rw [names_below directory hname, names_below directory hother, List.append_right_inj,
    List.singleton_inj, String.toList_inj]

namespace Layout

theorem isPlain_errors : IsPlain "errors.log".toList := by
  refine ⟨?_, ?_, ?_, ?_⟩ <;> decide

theorem isPlain_performance : IsPlain "performance.log".toList := by
  refine ⟨?_, ?_, ?_, ?_⟩ <;> decide

/-- The files of the log directory that are no snapshots. -/
def otherFiles (layout : Layout) : List String :=
  [layout.stateFile, layout.schemaFile, layout.errorLog, layout.performanceLog]

/-- Each of them has a plain name that begins like no snapshot's. -/
theorem exists_name_of_mem_otherFiles {layout : Layout} {file : String}
    (h : file ∈ layout.otherFiles) :
    ∃ name, file = layout.logDirectory ++ "/" ++ name ∧ IsPlain name.toList ∧
      ∀ s, name ≠ Snapshot.name s := by
  have hother {name : String} (hplain : IsPlain name.toList)
      (hfirst : name.toList.head?.all fun c => !isDigit c && c ≠ '-' && c ≠ '+') :
      IsPlain name.toList ∧ ∀ s, name ≠ Snapshot.name s := by
    refine ⟨hplain, ?_⟩
    rintro s rfl
    obtain ⟨c, hhead, hc⟩ := Snapshot.head?_name s
    rw [hhead] at hfirst
    rcases hc with hc | rfl | rfl
    · simp [hc] at hfirst
    · cases hfirst
    · cases hfirst
  simp only [otherFiles, List.mem_cons, List.not_mem_nil, or_false] at h
  rcases h with rfl | rfl | rfl | rfl
  · exact ⟨_, layout.stateFile_eq, hother isPlain_state (by decide)⟩
  · exact ⟨_, layout.schemaFile_eq, hother isPlain_schema (by decide)⟩
  · exact ⟨"errors.log", layout.join_logDirectory (by decide), hother isPlain_errors (by decide)⟩
  · exact ⟨"performance.log", layout.join_logDirectory (by decide),
      hother isPlain_performance (by decide)⟩

end Layout

/-- Whatever the transcript and the start of a session, its fragment is a text without slashes
    and dashes, and its snapshot lies in the log directory under a plain name. No other file of
    the log is there, however its path is written. Two snapshots of a project have the same
    path, or paths that name the same file, exactly if their sessions start in the same minute
    and have the same fragment. -/
theorem snapshots_named_apart (layout : Layout) (s : Session) :
    (sessionFragment s.transcriptPath ≠ "" ∧ '/' ∉ (sessionFragment s.transcriptPath).toList ∧
        '-' ∉ (sessionFragment s.transcriptPath).toList) ∧
      Path.parent? (Snapshot.path layout s) = some layout.logDirectory ∧
      (∃ name, IsPlain name ∧ Path.baseName? (Snapshot.path layout s).toList = some name ∧
        Path.names (Snapshot.path layout s).toList =
          Path.names layout.logDirectory.toList ++ [name]) ∧
      (∀ file ∈ layout.otherFiles,
        Path.names file.toList ≠ Path.names (Snapshot.path layout s).toList) ∧
      ∀ t, (Snapshot.path layout s = Snapshot.path layout t ↔
          SameMinute s.start t.start ∧
            sessionFragment s.transcriptPath = sessionFragment t.transcriptPath) ∧
        (Path.names (Snapshot.path layout s).toList =
            Path.names (Snapshot.path layout t).toList ↔
          SameMinute s.start t.start ∧
            sessionFragment s.transcriptPath = sessionFragment t.transcriptPath) := by
  have hpath := Snapshot.path_eq layout
  have hnames := Path.names_below layout.logDirectory (Snapshot.isPlain_name s)
  refine ⟨⟨fragment_ne_empty _, slash_not_mem_fragment _, dash_not_mem_fragment _⟩, ?_, ?_, ?_, ?_⟩
  · rw [hpath]
    exact layout.parent?_below (Snapshot.isPlain_name s)
  · rw [hpath]
    refine ⟨_, Snapshot.isPlain_name s, ?_, hnames⟩
    rw [Path.baseName?, hnames, List.getLast?_concat]
    exact if_neg (Snapshot.isPlain_name s).ne_dots
  · intro file hfile hsame
    obtain ⟨name, rfl, hplain, hother⟩ := Layout.exists_name_of_mem_otherFiles hfile
    rw [hpath, Path.names_below_inj hplain (Snapshot.isPlain_name s)] at hsame
    exact hother s hsame
  · intro t
    rw [hpath, hpath, Path.names_below_inj (Snapshot.isPlain_name s) (Snapshot.isPlain_name t),
      String.append_right_inj, Snapshot.name_eq_name_iff]
    exact ⟨Iff.rfl, Iff.rfl⟩

/-- A session on a transcript that starts at some second of the first day of 1970. -/
def startedAt (second : Nat) (h : second < 86400) (transcript : String) : Session :=
  let time := { DateTime.epoch.time with second := second, second_lt := h }
  .fresh ⟨DateTime.epoch.date, time⟩ "s" transcript "/p" ""

/-- Five and forty seconds past ten there is one name. A minute past ten there is another, and
    for another transcript as well. -/
theorem snapshots_named_apart_pastTen :
    let first := startedAt 36005 (by decide) "t.jsonl"
    Snapshot.path ⟨"/p"⟩ first = Snapshot.path ⟨"/p"⟩ (startedAt 36040 (by decide) "t.jsonl") ∧
      Snapshot.path ⟨"/p"⟩ first ≠
        Snapshot.path ⟨"/p"⟩ (startedAt 36060 (by decide) "t.jsonl") ∧
      Snapshot.path ⟨"/p"⟩ first ≠
        Snapshot.path ⟨"/p"⟩ (startedAt 36005 (by decide) "u.jsonl") := by
  intro first
  obtain ⟨-, -, -, -, hnames⟩ := snapshots_named_apart ⟨"/p"⟩ first
  refine ⟨(hnames _).1.2 ⟨⟨rfl, rfl, rfl, by decide, by decide⟩, rfl⟩, ?_, ?_⟩
  · intro hsame
    obtain ⟨hminute, -⟩ := (hnames _).1.1 hsame
    exact absurd hminute.minute (by decide)
  · intro hsame
    obtain ⟨-, hfragment⟩ := (hnames _).1.1 hsame
    exact absurd hfragment (by decide)

end SessionLog
