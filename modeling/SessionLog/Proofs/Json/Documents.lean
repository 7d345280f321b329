/-
  SessionLog/Proofs/Json/Documents.lean
  =====================================
  **Documents that carry their contents through text.**

  Both layouts print a value so that it reads as one and the same value: the value
  itself, but with the members of objects in the order of their keys. A value conveys
  something if a reader makes that of what its text reads as. Options, lists and fields of
  records are conveyed when their parts are, so a record needs no more than one fact for
  each field.
-/
import Mathlib.Data.List.Forall2
import SessionLog.Json.Record
import SessionLog.Proofs.Json.Numbers
import SessionLog.Proofs.Json.Paths
import SessionLog.Session.Record

namespace SessionLog

namespace Json

open Raw

/-! ### Both layouts -/

/-- In both layouts and at every indentation the text of a value reads as another one. -/
structure ReadsAs (depth : Nat) (value read : Json) : Prop where
  compact : Reads depth value.render read
  pretty : ∀ indent, Reads depth (value.renderAt indent) read

theorem readsAs_null (depth : Nat) : ReadsAs depth .null .null where
  compact := reads_null depth
  pretty _ := by
    rw [renderAt]
    exact reads_null depth

theorem readsAs_bool (depth : Nat) (b : Bool) : ReadsAs depth (.bool b) (.bool b) where
  compact := reads_bool depth b
  pretty _ := by
    rw [renderAt]
    exact reads_bool depth b

theorem readsAs_string (depth : Nat) (text : String) :
    ReadsAs depth (.string text) (.string text) where
  compact := by
    rw [render]
    exact reads_string depth text
  pretty _ := by
    rw [renderAt]
    exact reads_string depth text

theorem readsAs_number {depth : Nat} {number : Number} {read : Json}
    (h : Reads depth number.render read) : ReadsAs depth (.number number) read where
  compact := by
    rw [render]
    exact h
  pretty _ := by
    rw [renderAt]
    exact h

theorem readsAs_integer {n : Int} (hlow : Number.minSigned ≤ n) (hhigh : n ≤ Number.maxUnsigned)
    (depth : Nat) : ReadsAs depth (.number (.integer n)) (.number (.integer n)) :=
  readsAs_number (reads_integer hlow hhigh depth)

theorem readsAs_uint64 (depth : Nat) (n : UInt64) : ReadsAs depth (ofUInt64 n) (ofUInt64 n) :=
  readsAs_integer (Int.le_trans (by decide) (Int.natCast_nonneg _))
    (Int.le_sub_one_of_lt (Int.ofNat_lt.2 n.toNat_lt)) depth

theorem readsAs_int64 (depth : Nat) (n : Int64) : ReadsAs depth (ofInt64 n) (ofInt64 n) :=
  readsAs_integer n.le_toInt (Int.le_trans (Int.le_of_lt n.toInt_lt) (by decide)) depth

/-! ### Arrays and objects -/

theorem renderItems_eq (items : List Json) :
    renderItems items = itemsTail [] [] (items.map render) := by
  induction items with
  | nil => rfl
  | cons item items ih =>
    rw [renderItems, ih]
    rfl

theorem renderItemsAt_eq (indent : Nat) (items : List Json) :
    renderItemsAt indent items =
      itemsTail (newLine (indent + 1)) (newLine indent) (items.map (renderAt (indent + 1))) := by
  induction items with
  | nil => rw [renderItemsAt]; rfl
  | cons item items ih =>
    rw [renderItemsAt, ih]
    rfl

theorem readsAs_array {depth : Nat} {items values : List Json}
    (h : List.Forall₂ (ReadsAs depth) items values) :
    ReadsAs (depth + 1) (.array items) (.array values) := by
  cases h with
  | nil =>
    refine ⟨?_, fun indent => ?_⟩
    · rw [render]
      exact reads_nil depth
    · rw [renderAt]
      exact reads_nil depth
  | @cons item value items values hfirst hrest =>
    refine ⟨?_, fun indent => ?_⟩
    · have hitems : List.Forall₂ (Reads depth) (items.map render) values :=
        List.forall₂_map_left_iff.2 (hrest.imp fun _ _ h => h.compact)
      rw [render, renderItems_eq]
      exact reads_array IsBreak.nil IsBreak.nil hfirst.compact hitems
    · have hitems : List.Forall₂ (Reads depth) (items.map (renderAt (indent + 1))) values :=
        List.forall₂_map_left_iff.2 (hrest.imp fun _ _ h => h.pretty _)
      rw [renderAt, renderItemsAt_eq]
      exact reads_array (isBreak_newLine _) (isBreak_newLine _) (hfirst.pretty _) hitems

theorem renderMembers_eq (members : List (String × Json)) :
    renderMembers members =
      membersTail [] [] [] (members.map fun member => (member.1, member.2.render)) := by
  induction members with
  | nil => rfl
  | cons member members ih =>
    rw [renderMembers, ih]
    rfl

theorem renderMembersAt_eq (indent : Nat) (members : List (String × Json)) :
    renderMembersAt indent members =
      membersTail (newLine (indent + 1)) (newLine indent) [' ']
        (members.map fun member => (member.1, member.2.renderAt (indent + 1))) := by
  induction members with
  | nil => rw [renderMembersAt]; rfl
  | cons member members ih =>
    rw [renderMembersAt, ih]
    rfl

/-- The member keeps its key, and its value reads as another one. -/
def MemberReadsAs (depth : Nat) (member read : String × Json) : Prop :=
  member.1 = read.1 ∧ ReadsAs depth member.2 read.2

/-- Members that read make an object that reads, in the order of the keys. -/
theorem readsAs_object {depth : Nat} {members values : List (String × Json)}
    (h : List.Forall₂ (MemberReadsAs depth) members values) :
    ReadsAs (depth + 1) (.object members) (.object (sortedMembers values)) := by
  cases h with
  | nil =>
    refine ⟨?_, fun indent => ?_⟩
    · rw [render]
      exact reads_empty depth
    · rw [renderAt]
      exact reads_empty depth
  | @cons member value members values hfirst hrest =>
    refine ⟨?_, fun indent => ?_⟩
    · have hmembers : List.Forall₂ (ReadsMember depth)
          (members.map fun member => (member.1, member.2.render)) values :=
        List.forall₂_map_left_iff.2 (hrest.imp fun _ _ h => ⟨h.1, h.2.compact⟩)
      have hmember : ReadsMember depth (member.1, member.2.render) value :=
        ⟨hfirst.1, hfirst.2.compact⟩
      rw [render, renderMembers_eq]
      have hread := reads_object IsBreak.nil IsBreak.nil IsBreak.nil.spaces hmember hmembers
      simpa only [List.nil_append] using hread
    · have hmembers : List.Forall₂ (ReadsMember depth)
          (members.map fun member => (member.1, member.2.renderAt (indent + 1))) values :=
        List.forall₂_map_left_iff.2 (hrest.imp fun _ _ h => ⟨h.1, h.2.pretty _⟩)
      have hmember : ReadsMember depth (member.1, member.2.renderAt (indent + 1)) value :=
        ⟨hfirst.1, hfirst.2.pretty _⟩
      have hgap : ∀ c ∈ [' '], isSpace c = true := List.forall_mem_singleton.2 rfl
      rw [renderAt, renderMembersAt_eq]
      have hread := reads_object (isBreak_newLine (indent + 1)) (isBreak_newLine indent) hgap
        hmember hmembers
      simpa only [List.append_assoc, List.singleton_append] using hread

/-! ### What a value conveys -/

variable {α : Type} {depth : Nat}

/-- A reader makes something of what the text of the value reads as. -/
def Conveys (depth : Nat) (value : Json) (read? : Json → Option α) (a : α) : Prop :=
  ∃ read, ReadsAs depth value read ∧ read? read = some a

theorem conveys_string (depth : Nat) (text : String) :
    Conveys depth (.string text) string? text :=
  ⟨_, readsAs_string depth text, rfl⟩

theorem conveys_bool (depth : Nat) (b : Bool) : Conveys depth (.bool b) bool? b :=
  ⟨_, readsAs_bool depth b, rfl⟩

theorem conveys_uint64 (depth : Nat) (n : UInt64) : Conveys depth (ofUInt64 n) uint64? n := by
  refine ⟨_, readsAs_uint64 depth n, ?_⟩
  have hle : (n.toNat : Int) ≤ Number.maxUnsigned :=
    Int.le_sub_one_of_lt (Int.ofNat_lt.2 n.toNat_lt)
  simp only [uint64?, ofUInt64, number?, Option.bind_some, Number.toUInt64?]
  rw [if_pos ⟨Int.natCast_nonneg _, hle⟩, Int.toNat_natCast, UInt64.ofNat_toNat]

theorem conveys_int64 (depth : Nat) (n : Int64) : Conveys depth (ofInt64 n) int64? n := by
  refine ⟨_, readsAs_int64 depth n, ?_⟩
  have hrange : Number.minSigned ≤ n.toInt ∧ n.toInt ≤ Number.maxSigned :=
    ⟨n.le_toInt, Int.le_sub_one_of_lt n.toInt_lt⟩
  simp only [int64?, ofInt64, number?, Option.bind_some, Number.toInt64?]
  rw [if_pos hrange, Int64.ofInt_toInt]

/-- What a reader that knows no null makes of a value may be there or not. -/
theorem conveys_option {write : α → Json} {read? : Json → Option α} (hnull : read? .null = none)
    {o : Option α} (h : ∀ a ∈ o, Conveys depth (write a) read? a) :
    Conveys depth (ofOption write o) (nullable? read?) o := by
  cases o with
  | none => exact ⟨_, readsAs_null depth, rfl⟩
  | some a =>
    obtain ⟨read, hreads, hread⟩ := h a rfl
    refine ⟨read, hreads, ?_⟩
    cases read with
    | null =>
      rw [hnull] at hread
      cases hread
    | _ => simp [nullable?, hread]

theorem conveys_list {write : α → Json} {read? : Json → Option α} {l : List α}
    (h : ∀ a ∈ l, Conveys depth (write a) read? a) :
    Conveys (depth + 1) (.array (l.map write)) (list? read?) l := by
  have hitems : ∃ values, List.Forall₂ (ReadsAs depth) (l.map write) values ∧
      values.mapM read? = some l := by
    induction l with
    | nil => exact ⟨[], .nil, rfl⟩
    | cons a l ih =>
      obtain ⟨read, hreads, hread⟩ := h a List.mem_cons_self
      obtain ⟨values, hvalues, hread'⟩ := ih fun b hb => h b (List.mem_cons_of_mem _ hb)
      refine ⟨read :: values, .cons hreads hvalues, ?_⟩
      simp only [List.mapM_cons, hread, hread', Option.bind_eq_bind, Option.bind_some]
      rfl
  obtain ⟨values, hvalues, hread⟩ := hitems
  exact ⟨_, readsAs_array hvalues, hread⟩

end Json

/-! ### Records -/

namespace Raw

theorem lookup_eq_none_of_not_mem {members : List (String × Json)} {name : String}
    (h : name ∉ members.map Prod.fst) : members.lookup name = none := by
  rw [List.lookup_eq_none_iff]
  intro member hmember
  rw [bne_iff_ne]
  rintro rfl
  exact h (List.mem_map_of_mem hmember)

theorem lookup_foldl_insertMember (members seen : List (String × Json)) (name : String)
    (h : (members.map Prod.fst).Nodup) :
    (members.foldl (fun seen member => insertMember member.1 member.2 seen) seen).lookup name =
      (members.lookup name).or (seen.lookup name) := by
  induction members generalizing seen with
  | nil => rfl
  | cons member members ih =>
    obtain ⟨key, value⟩ := member
    rw [List.map_cons, List.nodup_cons] at h
    rw [List.foldl_cons, ih _ h.2, lookup_insertMember, lookup_member]
    by_cases hname : name = key
    · subst hname
      rw [lookup_eq_none_of_not_mem h.1]
      simp
    · simp only [if_neg hname]

/-- Sorting members of different keys changes nothing of what lies under a key. -/
theorem lookup_sortedMembers {members : List (String × Json)} (h : (members.map Prod.fst).Nodup)
    (name : String) : (sortedMembers members).lookup name = members.lookup name := by
  rw [sortedMembers, lookup_foldl_insertMember _ _ _ h, List.lookup_nil, Option.or_none]

theorem Reads.unique {depth : Nat} {text : List Char} {value value' : Json}
    (h : Reads depth text value) (h' : Reads depth text value') : value = value' := by
  obtain ⟨raw, hvalue, hread⟩ := h
  obtain ⟨raw', hvalue', hread'⟩ := h'
  have heq := (hread _ [] (Nat.le_refl _) Ends.nil).symm.trans
    (hread' _ [] (Nat.le_refl _) Ends.nil)
  cases heq
  exact Option.some.inj (hvalue.symm.trans hvalue')

end Raw

namespace Json

variable {α : Type} {depth : Nat} {members : List (String × Json)} {fields : Fields Json}

/-- The fields of a record hold what the texts of its members read as, and nothing else. -/
structure Holds (depth : Nat) (members : List (String × Json)) (fields : Fields Json) : Prop where
  present : ∀ {name value}, members.lookup name = some value →
    ∃ read, fields.lookup name = some read ∧ ReadsAs depth value read
  absent : ∀ {name}, members.lookup name = none → fields.lookup name = none

theorem holds_of_forall₂ (h : List.Forall₂ (MemberReadsAs depth) members fields) :
    Holds depth members fields := by
  induction h with
  | nil => exact ⟨fun h => (nomatch h), fun _ => rfl⟩
  | @cons member read members fields hfirst hrest ih =>
    obtain ⟨key, _⟩ := member
    obtain ⟨key', _⟩ := read
    obtain ⟨rfl, hreads⟩ := hfirst
    constructor
    · intro name value hvalue
      rw [lookup_member] at hvalue ⊢
      split at hvalue
      · cases hvalue
        exact ⟨_, if_pos ‹_›, hreads⟩
      · rw [if_neg ‹_›]
        exact ih.present hvalue
    · intro name hnone
      rw [lookup_member] at hnone ⊢
      split at hnone
      · cases hnone
      · rw [if_neg ‹_›]
        exact ih.absent hnone

/-- Values that each have a partner have them under the same keys and in the same order. -/
theorem exists_partners {β γ : Type} {r : β → γ → Prop} {l : List (String × β)}
    (h : ∀ member ∈ l, ∃ partner, r member.2 partner) :
    ∃ partners : List (String × γ),
      List.Forall₂ (fun member partner => member.1 = partner.1 ∧ r member.2 partner.2) l partners ∧
        l.map Prod.fst = partners.map Prod.fst := by
  induction l with
  | nil => exact ⟨[], .nil, rfl⟩
  | cons member l ih =>
    obtain ⟨partner, hpartner⟩ := h member List.mem_cons_self
    obtain ⟨partners, hpartners, hsame⟩ := ih fun m hm => h m (List.mem_cons_of_mem _ hm)
    refine ⟨(member.1, partner) :: partners, .cons ⟨rfl, hpartner⟩ hpartners, ?_⟩
    rw [List.map_cons, List.map_cons, hsame]

/-- A record reads as fields that hold its members, if its keys are different and each of
    its members reads as something. -/
theorem readsAs_record (hkeys : (members.map Prod.fst).Nodup)
    (h : ∀ member ∈ members, ∃ read, ReadsAs depth member.2 read) :
    ∃ fields, ReadsAs (depth + 1) (.object members) (.object fields) ∧
      Holds depth members fields := by
  obtain ⟨values, hvalues, hsame⟩ : ∃ values, List.Forall₂ (MemberReadsAs depth) members values ∧
      members.map Prod.fst = values.map Prod.fst := exists_partners h
  have hlookup := Raw.lookup_sortedMembers (hsame ▸ hkeys)
  have hholds := holds_of_forall₂ hvalues
  refine ⟨_, readsAs_object hvalues, fun hvalue => ?_, fun hnone => ?_⟩
  · rw [hlookup]
    exact hholds.present hvalue
  · rw [hlookup]
    exact hholds.absent hnone

theorem Conveys.exists_readsAs {value : Json} {read? : Json → Option α} {a : α}
    (h : Conveys depth value read? a) : ∃ read, ReadsAs depth value read :=
  h.imp fun _ h => h.1

/-- What a reader makes of the value that is found. -/
theorem required?_of_found {name : String} {read? : Json → Option α} {a : α}
    (h : ∃ read, fields.lookup name = some read ∧ read? read = some a) :
    fields.required? name read? = some a := by
  obtain ⟨read, hlookup, hread⟩ := h
  rw [Fields.required?, hlookup]
  exact hread

theorem withDefault?_of_found {name : String} {read? : Json → Option α} {a : α}
    (h : ∃ read, fields.lookup name = some read ∧ read? read = some a) (default : α) :
    fields.withDefault? name default read? = some a := by
  obtain ⟨read, hlookup, hread⟩ := h
  rw [Fields.withDefault?, hlookup]
  exact hread

theorem Holds.exists_lookup (h : Holds depth members fields) {name : String} {value : Json}
    {read? : Json → Option α} {a : α} (hvalue : members.lookup name = some value)
    (hconveys : Conveys depth value read? a) :
    ∃ read, fields.lookup name = some read ∧ read? read = some a := by
  obtain ⟨read, hlookup, hreads⟩ := h.present hvalue
  obtain ⟨read', hreads', hread⟩ := hconveys
  refine ⟨read, hlookup, ?_⟩
  rw [hreads.compact.unique hreads'.compact]
  exact hread

theorem Holds.required? (h : Holds depth members fields) {name : String} {value : Json}
    {read? : Json → Option α} {a : α} (hvalue : members.lookup name = some value)
    (hconveys : Conveys depth value read? a) : fields.required? name read? = some a :=
  required?_of_found (h.exists_lookup hvalue hconveys)

theorem Holds.withDefault? (h : Holds depth members fields) {name : String} {value : Json}
    {read? : Json → Option α} {a : α} (hvalue : members.lookup name = some value)
    (hconveys : Conveys depth value read? a) (default : α) :
    fields.withDefault? name default read? = some a :=
  withDefault?_of_found (h.exists_lookup hvalue hconveys) default

theorem Holds.default (h : Holds depth members fields) {name : String}
    (hnone : members.lookup name = none) (default : α) (read? : Json → Option α) :
    fields.withDefault? name default read? = some default := by
  rw [Fields.withDefault?, h.absent hnone]

/-! ### Records with members left out -/

/-- The fields hold what the texts of the members of a record read as, but for some names, and
    nothing under those. -/
structure HoldsBut (names : List String) (depth : Nat) (record : Json) (fields : Fields Json) :
    Prop where
  kept : ∀ {name value}, record.get? name = some value → name ∉ names →
    ∃ read, fields.lookup name = some read ∧ Raw.Reads depth value.render read
  dropped : ∀ {name value}, record.get? name = some value → name ∈ names →
    fields.lookup name = none

variable {names : List String} {record : Json}

theorem HoldsBut.exists_lookup (h : HoldsBut names depth record fields) {name : String}
    {value : Json} {read? : Json → Option α} {a : α} (hvalue : record.get? name = some value)
    (hname : name ∉ names) (hconveys : Conveys depth value read? a) :
    ∃ read, fields.lookup name = some read ∧ read? read = some a := by
  obtain ⟨read, hlookup, hreads⟩ := h.kept hvalue hname
  obtain ⟨read', hreads', hread⟩ := hconveys
  refine ⟨read, hlookup, ?_⟩
  rw [hreads.unique hreads'.compact]
  exact hread

/-- A member is read with its default if it is left out, and as it is otherwise. -/
theorem HoldsBut.withDefault? (h : HoldsBut names depth record fields) {name : String}
    {value : Json} {read? : Json → Option α} {a : α} (hvalue : record.get? name = some value)
    (hconveys : name ∉ names → Conveys depth value read? a) (default : α) :
    fields.withDefault? name default read? = some (if name ∈ names then default else a) := by
  split
  · rename_i hname
    rw [Fields.withDefault?, h.dropped hvalue hname]
  · rename_i hname
    exact withDefault?_of_found (h.exists_lookup hvalue hname (hconveys hname)) default

theorem Holds.holdsBut (h : Holds depth (members.filter fun member => member.1 ∉ names) fields) :
    HoldsBut names depth (.object members) fields := by
  have hlookup (name : String) := lookup_filter_key (fun name => name ∉ names) members name
  constructor
  · intro name value hvalue hname
    have hkept := hlookup name
    rw [if_pos (by simpa using hname)] at hkept
    obtain ⟨read, hfound, hreads⟩ := h.present (hkept.trans hvalue)
    exact ⟨read, hfound, hreads.compact⟩
  · intro name value hvalue hname
    have hdropped := hlookup name
    rw [if_neg (by simpa using hname)] at hdropped
    exact h.absent hdropped

/-- A record without some members reads as fields that hold the others. -/
theorem readsAs_keeping (hkeys : (members.map Prod.fst).Nodup)
    (h : ∀ member ∈ members, member.1 ∉ names → ∃ read, ReadsAs depth member.2 read) :
    ∃ fields,
      ReadsAs (depth + 1) ((Json.object members).keeping fun name => name ∉ names)
        (.object fields) ∧
      HoldsBut names depth (.object members) fields := by
  have hkept : ((members.filter fun member => member.1 ∉ names).map Prod.fst).Nodup :=
    hkeys.sublist (List.filter_sublist.map Prod.fst)
  obtain ⟨fields, hreads, hfields⟩ := readsAs_record hkept fun member hmember => by
    obtain ⟨hmember, hname⟩ := List.mem_filter.1 hmember
    exact h member hmember (by simpa using hname)
  exact ⟨fields, hreads, hfields.holdsBut⟩

end Json

end SessionLog
