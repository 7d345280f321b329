/-
  SessionLog/Proofs/StateFile/Compatibility.lean
  ==============================================
  **Records of other builds are read with defaults.**

  Another build may leave out fields and token categories that this one writes, and write
  fields that this one does not know. What is left out has its default, what is not known is
  passed over, and every other field is read as it was, in whatever order the members stand.
  Only the start of the session has to be there.
-/
import SessionLog.Proofs.Json.Continuation
import SessionLog.Proofs.Json.Members
import SessionLog.Proofs.StateFile.Survival

namespace SessionLog

open Json

/-! ### Members that another build writes -/

namespace Session

/-- The members of the record without some fields and token categories. -/
def membersLacking (names categories : List String) (s : Session) : List (String × Json) :=
  (s.members categories).filter fun member => member.1 ∉ names

/-- Members that the format does not know, each with the text of its value. A value nests less
    deep than a whole document may. -/
structure AreUnknown (extras : List (String × List Char)) : Prop where
  nodup : (extras.map Prod.fst).Nodup
  unknown : ∀ member ∈ extras, member.1 ∉ fieldNames
  values : ∀ member ∈ extras, Raw.IsValue 126 member.2

variable {s : Session} {names categories : List String} {extras texts : List (String × List Char)}
  {fields : Fields Json} {name : String} {value : Json}

theorem keys_membersLacking (names categories : List String) (s : Session) :
    (memberTexts (s.membersLacking names categories)).map Prod.fst =
      fieldNames.filter fun name => name ∉ names := by
  rw [memberTexts, List.map_map, ← s.map_fst_members categories, List.filter_map]
  rfl

theorem mem_members (hvalue : (s.recordWith categories).get? name = some value) :
    (name, value) ∈ s.members categories := by
  obtain ⟨front, back, hmembers, -⟩ := List.lookup_eq_some_iff.1 hvalue
  rw [members, recordWith, toJson, under, members?, Option.getD_some, hmembers]
  exact List.mem_append_right front List.mem_cons_self

section OtherBuild

variable (hextras : AreUnknown extras)
  (htexts : texts.Perm (memberTexts (s.membersLacking names categories) ++ extras))
include htexts

theorem mem_texts (hvalue : (s.recordWith categories).get? name = some value)
    (hname : name ∉ names) : (name, value.render) ∈ texts := by
  have hmem : (name, value) ∈ s.membersLacking names categories :=
    List.mem_filter.2 ⟨mem_members hvalue, by simpa using hname⟩
  exact htexts.mem_iff.2 (List.mem_append_left _ (List.mem_map_of_mem hmem))

include hextras

theorem not_mem_keys (hvalue : (s.recordWith categories).get? name = some value)
    (hname : name ∈ names) : name ∉ texts.map Prod.fst := by
  have hknown : name ∈ fieldNames := by
    rw [← s.map_fst_members categories]
    exact List.mem_map_of_mem (mem_members hvalue)
  rw [(htexts.map Prod.fst).mem_iff, List.map_append, keys_membersLacking, List.mem_append]
  rintro (hkept | hextra)
  · have hkept := (List.mem_filter.1 hkept).2
    simp [hname] at hkept
  · obtain ⟨member, hmember, rfl⟩ := List.mem_map.1 hextra
    exact hextras.unknown member hmember hknown

/-- The members that another build writes have different keys. -/
theorem nodup_keys_of_perm : (texts.map Prod.fst).Nodup := by
  have hnodup : fieldNames.Nodup := by decide
  rw [(htexts.map Prod.fst).nodup_iff, List.map_append, keys_membersLacking, List.nodup_append]
  refine ⟨hnodup.filter _, hextras.nodup, ?_⟩
  rintro known hknown unknown hunknown rfl
  obtain ⟨member, hmember, rfl⟩ := List.mem_map.1 hunknown
  exact hextras.unknown member hmember (List.mem_of_mem_filter hknown)

/-- In whatever order the members stand: what is left out is missing among them, and what is
    kept is not hidden by what is added. -/
theorem holdsBut_of_perm (h : HoldsTexts 126 texts fields) :
    HoldsBut names 126 (s.recordWith categories) fields where
  kept hvalue hname := h.present (mem_texts htexts hvalue hname)
  dropped hvalue hname := h.absent (not_mem_keys hextras htexts hvalue hname)

/-- What another build writes reads as the session with defaults. -/
theorem reads_of_perm (hstart : "start_time" ∉ names)
    (htimes : (s.lacking names categories).HasTimes fun t => t.time.LeapEndsMinute) :
    ∃ value, Raw.Reads maxDepth (objectText texts) value ∧
      ofJson? value = some (s.lacking names categories) := by
  obtain ⟨hmembers, hread⟩ := reads_lacking 124 hstart htimes
  have hreadable : ∀ text ∈ texts, ∃ value, Raw.Reads 126 text.2 value := by
    intro text htext
    rcases List.mem_append.1 (htexts.mem_iff.1 htext) with hkept | hextra
    · obtain ⟨member, hmember, rfl⟩ := List.mem_map.1 hkept
      obtain ⟨hmember, hname⟩ := List.mem_filter.1 hmember
      obtain ⟨read, hread⟩ := hmembers member hmember (by simpa using hname)
      exact ⟨read, hread.compact⟩
    · exact (hextras.values text hextra).exists_reads
  obtain ⟨fields, hreads, hfields⟩ :=
    reads_objectText (nodup_keys_of_perm hextras htexts) hreadable
  exact ⟨_, hreads, hread fields (holdsBut_of_perm hextras htexts hfields)⟩

end OtherBuild

end Session

/-! ### Files of other builds -/

namespace StateFile

variable {s : Session} {names categories : List String} {extras texts : List (String × List Char)}

@[simp] theorem isAllBlank_objectText (texts : List (String × List Char)) :
    Text.isAllBlank (objectText texts) = false := by
  cases texts <;> rfl

theorem ofText_lacking (hversion : s.version = Session.currentVersion)
    (hstart : "start_time" ∉ names) (hextras : Session.AreUnknown extras)
    (htexts : texts.Perm (memberTexts (s.membersLacking names categories) ++ extras))
    (htimes : (s.lacking names categories).HasTimes fun t => t.time.LeapEndsMinute) :
    ofText (objectText texts) = (some (s.lacking names categories), []) := by
  obtain ⟨value, hreads, hread⟩ := Session.reads_of_perm hextras htexts hstart htimes
  have hkept : (s.lacking names categories).version = Session.currentVersion := by
    simp only [Session.lacking, hversion, ite_self]
  exact ofText_of_parse? (isAllBlank_objectText texts) hreads.parse? hread hkept

/-- Any fields but the start and any token categories may be left out of the record of a
    session, and members that the format does not know may be added, in any order. What is
    read from a file of that is the session with defaults for what is left out, if every
    leap second in it ends a minute. -/
theorem other_builds_read_with_defaults {tree : FileTree} {path : String}
    (hversion : s.version = Session.currentVersion) (hstart : "start_time" ∉ names)
    (hextras : Session.AreUnknown extras)
    (htexts : texts.Perm (memberTexts (s.membersLacking names categories) ++ extras))
    (hfile : tree.read? path = some (Utf8.encode (objectText texts))) :
    read tree path = (some (s.lacking names categories), []) ↔
      (s.lacking names categories).HasTimes fun t => t.time.LeapEndsMinute := by
  constructor
  · intro hread
    exact (isKept_of_read (congrArg Prod.fst hread)).times
  · intro htimes
    rw [read_eq_ofText hfile]
    exact ofText_lacking hversion hstart hextras htexts htimes

def note : String × List Char := ("note", "[1,\x7b\"a\":null\x7d]".toList)

def countedSession : Session :=
  { shortRecordSession with tokens := ⟨7, 5, 3, 2⟩, model := some "opus" }

/-- The members that a build writes of the session, which puts a note in front and knows
    neither files nor models nor the input of a session. -/
def otherBuildTexts : List (String × List Char) :=
  note :: memberTexts (countedSession.membersLacking ["files_modified", "model"] ["input"])

def otherBuildTree : FileTree :=
  ⟨.root, [(Location.root.child "state".toList,
    .file (Utf8.encode (objectText otherBuildTexts)))], []⟩

theorem other_builds_read_with_defaults_note :
    otherBuildTree.read? "/state" = some (Utf8.encode (objectText otherBuildTexts)) ∧
      read otherBuildTree "/state" = (some
        { shortRecordSession with filesModified := [], tokens := ⟨0, 5, 3, 2⟩ }, []) := by
  have hextras : Session.AreUnknown [note] := by
    refine ⟨by decide, by decide, ?_⟩
    rw [List.forall_mem_singleton]
    have hlast : note.2.getLast? = some ']' := by decide +kernel
    exact ⟨by decide +kernel, hlast ▸ forall_mem_some (by decide)⟩
  have htexts : otherBuildTexts.Perm (memberTexts
      (countedSession.membersLacking ["files_modified", "model"] ["input"]) ++ [note]) :=
    (List.perm_append_singleton note _).symm
  have htimes : (countedSession.lacking ["files_modified", "model"] ["input"]).HasTimes
      fun t => t.time.LeapEndsMinute := by
    constructor
    · decide
    · rintro pending ⟨⟩
      decide
    · rintro pending ⟨⟩
  exact ⟨rfl, (other_builds_read_with_defaults rfl (by decide) hextras htexts rfl).2 htimes⟩

end StateFile

end SessionLog
