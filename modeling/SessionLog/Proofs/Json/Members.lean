/-
  SessionLog/Proofs/Json/Members.lean
  ===================================
  **Objects put together from the texts of their members.**

  Under each key lies what the text of its member reads as, whatever the other members are
  and in whatever order they stand.
-/
import SessionLog.Proofs.Json.Documents

namespace SessionLog

namespace Json

/-- The text of an object, from the texts of its members. -/
def objectText : List (String × List Char) → List Char
  | [] => ['{', '}']
  | (key, text) :: rest =>
    '{' :: (renderString key ++ ':' :: (text ++ Raw.membersTail [] [] [] rest))

def memberTexts (members : List (String × Json)) : List (String × List Char) :=
  members.map fun member => (member.1, member.2.render)

theorem lookup_eq_some_of_mem {members : List (String × Json)} (h : (members.map Prod.fst).Nodup)
    {name : String} {value : Json} (hmem : (name, value) ∈ members) :
    members.lookup name = some value := by
  induction members with
  | nil => cases hmem
  | cons member members ih =>
    obtain ⟨key, other⟩ := member
    rw [List.map_cons, List.nodup_cons] at h
    rw [lookup_member]
    rcases List.mem_cons.1 hmem with heq | hmore
    · cases heq
      exact if_pos rfl
    · have hne : name ≠ key := by
        rintro rfl
        exact h.1 (List.mem_map.2 ⟨(name, value), hmore, rfl⟩)
      rw [if_neg hne]
      exact ih h.2 hmore

theorem exists_mem_of_forall₂ {α β : Type} {r : α → β → Prop} {l : List α} {l' : List β}
    (h : List.Forall₂ r l l') {a : α} (ha : a ∈ l) : ∃ b ∈ l', r a b := by
  induction h with
  | nil => cases ha
  | @cons first partner l l' hfirst _ ih =>
    rcases List.mem_cons.1 ha with rfl | hmore
    · exact ⟨partner, List.mem_cons_self, hfirst⟩
    · obtain ⟨b, hb, hrelated⟩ := ih hmore
      exact ⟨b, List.mem_cons_of_mem _ hb, hrelated⟩

/-- The fields hold what the texts of some members read as, and nothing else. -/
structure HoldsTexts (depth : Nat) (texts : List (String × List Char)) (fields : Fields Json) :
    Prop where
  present : ∀ {name text}, (name, text) ∈ texts →
    ∃ value, fields.lookup name = some value ∧ Raw.Reads depth text value
  absent : ∀ {name}, name ∉ texts.map Prod.fst → fields.lookup name = none

variable {depth : Nat} {texts : List (String × List Char)} {fields : Fields Json}

/-- An object reads as fields that hold its members, if its keys are different and the text of
    each member reads as something. -/
theorem reads_objectText (hkeys : (texts.map Prod.fst).Nodup)
    (h : ∀ text ∈ texts, ∃ value, Raw.Reads depth text.2 value) :
    ∃ fields, Raw.Reads (depth + 1) (objectText texts) (.object fields) ∧
      HoldsTexts depth texts fields := by
  obtain ⟨values, hvalues, hsame⟩ : ∃ values, List.Forall₂ (Raw.ReadsMember depth) texts values ∧
      texts.map Prod.fst = values.map Prod.fst := exists_partners h
  have hlookup := Raw.lookup_sortedMembers (hsame ▸ hkeys)
  refine ⟨Raw.sortedMembers values, ?_, fun hmem => ?_, fun hnone => ?_⟩
  · cases hvalues with
    | nil => exact Raw.reads_empty depth
    | cons hfirst hrest =>
      exact Raw.reads_object Raw.IsBreak.nil Raw.IsBreak.nil Raw.IsBreak.nil.spaces hfirst hrest
  · rename_i name text
    obtain ⟨⟨key, value⟩, hvalue, rfl, hreads⟩ := exists_mem_of_forall₂ hvalues hmem
    refine ⟨value, ?_, hreads⟩
    rw [hlookup]
    exact lookup_eq_some_of_mem (hsame ▸ hkeys) hvalue
  · rw [hlookup]
    exact Raw.lookup_eq_none_of_not_mem (hsame ▸ hnone)

end Json

end SessionLog
