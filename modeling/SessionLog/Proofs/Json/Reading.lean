/-
  SessionLog/Proofs/Json/Reading.lean
  ===================================
  **Texts that are read as values.**

  A text reads as a value if the reader takes all of it, and nothing of what may follow,
  for that value. Texts of arrays and objects read as their items and members do, with
  line breaks between them or without. So what is printed is put together from parts of
  which each is known to read, and no part has to be looked into again.

  The fuel of the reader is twice the length of the text: each call of `items?` or
  `members?` lies between two calls of `value?`, and each of these takes a character.
-/
import SessionLog.Proofs.Json.Strings
import SessionLog.Proofs.Text.Digits

namespace SessionLog

namespace Raw

/-! ### Blanks and ends -/

/-- What may follow a value: a comma, a bracket, a line break or nothing. -/
def Ends (rest : List Char) : Prop :=
  ∀ c ∈ rest.head?, c = ',' ∨ c = ']' ∨ c = '}' ∨ c = '\n'

theorem Ends.nil : Ends [] := by
  intro c hc
  cases hc

theorem Ends.cons {c : Char} (h : c = ',' ∨ c = ']' ∨ c = '}' ∨ c = '\n') (rest : List Char) :
    Ends (c :: rest) := by
  intro d hd
  cases hd
  exact h

theorem Ends.noDigit {rest : List Char} (h : Ends rest) : Text.NoDigit rest := by
  intro c hc
  rcases h c hc with rfl | rfl | rfl | rfl <;> rfl

/-- Blanks that may follow a value, or nothing. -/
structure IsBreak (blanks : List Char) : Prop where
  spaces : ∀ c ∈ blanks, isSpace c = true
  ends : Ends blanks

theorem IsBreak.nil : IsBreak [] where
  spaces _ h := (List.not_mem_nil h).elim
  ends := Ends.nil

theorem isBreak_newLine (depth : Nat) : IsBreak (Json.newLine depth) where
  spaces := by
    intro c hc
    rcases List.mem_cons.1 hc with rfl | hc
    · rfl
    · rw [List.eq_of_mem_replicate hc]
      rfl
  ends := Ends.cons (by simp) _

theorem IsBreak.ends_append {blanks : List Char} (h : IsBreak blanks) {rest : List Char}
    (hrest : Ends rest) : Ends (blanks ++ rest) := by
  cases blanks with
  | nil => exact hrest
  | cons c blanks => exact h.ends

theorem skipSpace_append {blanks : List Char} (h : ∀ c ∈ blanks, isSpace c = true)
    (text : List Char) : skipSpace (blanks ++ text) = skipSpace text :=
  List.dropWhile_append_of_pos h

theorem skipSpace_cons {c : Char} (h : isSpace c = false) (text : List Char) :
    skipSpace (c :: text) = c :: text :=
  List.dropWhile_cons_of_neg (Bool.eq_false_iff.1 h)

/-! ### Values behind blanks -/

theorem value?_blanks {blanks : List Char} (h : ∀ c ∈ blanks, isSpace c = true) (fuel : Nat)
    (text : List Char) : value? fuel (blanks ++ text) = value? fuel text := by
  cases fuel with
  | zero => rfl
  | succ fuel => rw [value?, value?, skipSpace_append h]

theorem items?_blanks {blanks : List Char} (h : ∀ c ∈ blanks, isSpace c = true) (fuel : Nat)
    (text : List Char) : items? fuel (blanks ++ text) = items? fuel text := by
  cases fuel with
  | zero => rfl
  | succ fuel => rw [items?, items?, value?_blanks h]

theorem members?_blanks {blanks : List Char} (h : ∀ c ∈ blanks, isSpace c = true) (fuel : Nat)
    (text : List Char) : members? fuel (blanks ++ text) = members? fuel text := by
  cases fuel with
  | zero => rfl
  | succ fuel => rw [members?, members?, skipSpace_append h]

/-! ### Reading -/

/-- The text is read as the value, which nests at most `depth` deep. -/
def Reads (depth : Nat) (text : List Char) (value : Json) : Prop :=
  ∃ raw : Raw, raw.toJson? depth = some value ∧
    ∀ fuel rest, 2 * text.length ≤ fuel → Ends rest →
      value? fuel (text ++ rest) = some (raw, rest)

theorem Reads.parse? {text : List Char} {value : Json} (h : Reads Json.maxDepth text value) :
    Json.parse? text = some value := by
  obtain ⟨raw, hvalue, hread⟩ := h
  have htext := hread (2 * text.length + 2) [] (Nat.le_add_right _ _) Ends.nil
  rw [List.append_nil] at htext
  rw [Json.parse?, Raw.parse?, htext]
  exact hvalue

/-! ### Words and strings -/

theorem reads_null (depth : Nat) : Reads depth ['n', 'u', 'l', 'l'] .null := by
  refine ⟨.null, by rw [toJson?], fun fuel rest hfuel _ => ?_⟩
  cases fuel with
  | zero => cases hfuel
  | succ fuel => rfl

theorem reads_bool (depth : Nat) (b : Bool) : Reads depth (Json.render (.bool b)) (.bool b) := by
  refine ⟨.bool b, by rw [toJson?], fun fuel rest hfuel _ => ?_⟩
  cases fuel with
  | zero => cases b <;> cases hfuel
  | succ fuel => cases b <;> rfl

theorem renderString_append (text : String) (rest : List Char) :
    renderString text ++ rest = '"' :: (text.toList.flatMap escapeChar ++ '"' :: rest) := by
  simp [renderString]

theorem reads_string (depth : Nat) (text : String) :
    Reads depth (renderString text) (.string text) := by
  refine ⟨.string (text.toList.map pieceOf), ?_, fun fuel rest hfuel _ => ?_⟩
  · rw [toJson?, string?_pieces]
    rfl
  · cases fuel with
    | zero => cases hfuel
    | succ fuel =>
      rw [renderString_append, value?, skipSpace_cons (by decide)]
      simp only [stringBody_text]
      rfl

/-! ### Arrays -/

def itemsTail (inner outer : List Char) : List (List Char) → List Char
  | [] => outer ++ [']']
  | text :: rest => ',' :: (inner ++ text ++ itemsTail inner outer rest)

theorem length_itemsTail_pos (inner outer : List Char) (texts : List (List Char)) :
    0 < (itemsTail inner outer texts).length := by
  cases texts with
  | nil => simp [itemsTail]
  | cons text texts => simp [itemsTail]

theorem ends_itemsTail (inner : List Char) {outer : List Char} (houter : IsBreak outer)
    (texts : List (List Char)) (rest : List Char) :
    Ends (itemsTail inner outer texts ++ rest) := by
  cases texts with
  | nil =>
    rw [itemsTail, List.append_assoc]
    exact houter.ends_append (Ends.cons (by simp) rest)
  | cons text texts => exact Ends.cons (by simp) _

variable {inner outer gap : List Char} {depth : Nat}

theorem items?_reads (hinner : IsBreak inner) (houter : IsBreak outer) {text : List Char}
    {value : Json} {texts : List (List Char)} {values : List Json} (hfirst : Reads depth text value)
    (h : List.Forall₂ (Reads depth) texts values) :
    ∃ raws, itemsToJson? depth raws = some (value :: values) ∧
      ∀ fuel rest, 2 * (text ++ itemsTail inner outer texts).length ≤ fuel →
        items? fuel (text ++ itemsTail inner outer texts ++ rest) = some (raws, rest) := by
  induction h generalizing text value with
  | nil =>
    obtain ⟨raw, hvalue, hread⟩ := hfirst
    refine ⟨[raw], by simp only [itemsToJson?, hvalue], fun fuel rest hfuel => ?_⟩
    have hpos := length_itemsTail_pos inner outer []
    rw [List.length_append] at hfuel
    cases fuel with
    | zero => omega
    | succ fuel =>
      have hends := ends_itemsTail inner houter [] rest
      have hclose : skipSpace (itemsTail inner outer [] ++ rest) = ']' :: rest := by
        rw [itemsTail, List.append_assoc, skipSpace_append houter.spaces]
        exact skipSpace_cons (by decide) rest
      rw [items?, List.append_assoc, hread fuel _ (by omega) hends]
      simp only [Option.bind_eq_bind, Option.bind_some, hclose]
      rfl
  | @cons next nextValue texts values hnext htexts ih =>
    obtain ⟨raw, hvalue, hread⟩ := hfirst
    obtain ⟨raws, hvalues, hreads⟩ := ih hnext
    refine ⟨raw :: raws, by rw [itemsToJson?, hvalue, hvalues], fun fuel rest hfuel => ?_⟩
    have htail : itemsTail inner outer (next :: texts) =
        ',' :: (inner ++ (next ++ itemsTail inner outer texts)) := by
      rw [itemsTail, List.append_assoc]
    have hends := ends_itemsTail inner houter (next :: texts) rest
    rw [List.length_append] at hfuel
    -- the comma pays for the fuel of one more call
    have hlength : (next ++ itemsTail inner outer texts).length <
        (itemsTail inner outer (next :: texts)).length := by
      simp only [htail, List.length_cons, List.length_append]
      omega
    cases fuel with
    | zero => omega
    | succ fuel =>
      rw [items?, List.append_assoc, hread fuel _ (by omega) hends, htail, List.cons_append,
        List.append_assoc inner]
      have hcomma (text : List Char) : skipSpace (',' :: text) = ',' :: text :=
        skipSpace_cons (by decide) text
      simp only [Option.bind_eq_bind, Option.bind_some, hcomma, items?_blanks hinner.spaces,
        hreads fuel rest (by omega)]
      rfl

theorem reads_nil (depth : Nat) : Reads (depth + 1) ['[', ']'] (.array []) := by
  refine ⟨.array [], by simp only [toJson?, itemsToJson?, Option.map_some], ?_⟩
  intro fuel rest hfuel _
  cases fuel with
  | zero => cases hfuel
  | succ fuel => rfl

theorem reads_array (hinner : IsBreak inner) (houter : IsBreak outer) {text : List Char}
    {value : Json} {texts : List (List Char)} {values : List Json} (hfirst : Reads depth text value)
    (h : List.Forall₂ (Reads depth) texts values) :
    Reads (depth + 1) ('[' :: (inner ++ text ++ itemsTail inner outer texts))
      (.array (value :: values)) := by
  obtain ⟨raws, hvalues, hreads⟩ := items?_reads hinner houter hfirst h
  obtain ⟨raw, -, hread⟩ := hfirst
  refine ⟨.array raws, by rw [toJson?, hvalues]; rfl, fun fuel rest hfuel _ => ?_⟩
  have hpos := length_itemsTail_pos inner outer texts
  rw [List.append_assoc, List.length_cons, List.length_append] at hfuel
  cases fuel with
  | zero => omega
  | succ fuel =>
    have hitems := hreads fuel rest (by omega)
    -- The first item is a value, and a closing bracket is none.
    have hopen : ∀ after, skipSpace (inner ++ (text ++ itemsTail inner outer texts ++ rest)) ≠
        ']' :: after := by
      intro after hafter
      rw [skipSpace_append hinner.spaces] at hafter
      have hends := ends_itemsTail inner houter texts rest
      have hlength : 2 * text.length ≤ 2 * text.length + 1 := Nat.le_succ _
      have hvalue := hread (2 * text.length + 1) _ hlength hends
      rw [← List.append_assoc, value?, hafter] at hvalue
      cases hvalue
    rw [List.append_assoc, List.cons_append, List.append_assoc, value?, skipSpace_cons (by decide)]
    simp only [items?_blanks hinner.spaces, hitems]
    rfl

/-! ### Objects -/

def membersTail (inner outer gap : List Char) : List (String × List Char) → List Char
  | [] => outer ++ ['}']
  | (key, text) :: rest =>
    ',' :: (inner ++ renderString key ++ ':' :: (gap ++ (text ++ membersTail inner outer gap rest)))

/-- Members put one after the other into an empty list, sorted by key. -/
def sortedMembers (members : List (String × Json)) : List (String × Json) :=
  members.foldl (fun seen member => insertMember member.1 member.2 seen) []

def ReadsMember (depth : Nat) (text : String × List Char) (member : String × Json) : Prop :=
  text.1 = member.1 ∧ Reads depth text.2 member.2

theorem ends_membersTail (inner gap : List Char) {outer : List Char} (houter : IsBreak outer)
    (texts : List (String × List Char)) (rest : List Char) :
    Ends (membersTail inner outer gap texts ++ rest) := by
  cases texts with
  | nil =>
    rw [membersTail, List.append_assoc]
    exact houter.ends_append (Ends.cons (by simp) rest)
  | cons text texts => exact Ends.cons (by simp) _

/-- A member up to the end of its value. Behind it the object ends or goes on. -/
theorem members?_member (hgap : ∀ c ∈ gap, isSpace c = true) (key : String) {text : List Char}
    {raw : Raw} {fuel : Nat} {after : List Char}
    (hread : value? fuel (text ++ after) = some (raw, after)) {result}
    (hresult : (match skipSpace after with
      | '}' :: rest => some ([(key.toList.map pieceOf, raw)], rest)
      | ',' :: rest => do
        let (members, rest) ← members? fuel rest
        return ((key.toList.map pieceOf, raw) :: members, rest)
      | _ => none) = result) :
    members? (fuel + 1) (renderString key ++ ':' :: (gap ++ (text ++ after))) = result := by
  have hquote (text : List Char) : skipSpace ('"' :: text) = '"' :: text :=
    skipSpace_cons (by decide) text
  have hcolon (text : List Char) : skipSpace (':' :: text) = ':' :: text :=
    skipSpace_cons (by decide) text
  rw [members?, renderString_append]
  simp only [hquote, stringBody_text, Option.bind_eq_bind, Option.bind_some, hcolon,
    value?_blanks hgap, hread, List.reverse_nil, List.nil_append]
  exact hresult

theorem members?_reads (hinner : IsBreak inner) (houter : IsBreak outer)
    (hgap : ∀ c ∈ gap, isSpace c = true) {text : String × List Char} {member : String × Json}
    {texts : List (String × List Char)} {members : List (String × Json)}
    (hfirst : ReadsMember depth text member)
    (h : List.Forall₂ (ReadsMember depth) texts members) :
    ∃ raws, (∀ seen, membersToJson? depth raws seen = some ((member :: members).foldl
        (fun seen member => insertMember member.1 member.2 seen) seen)) ∧
      ∀ fuel rest,
        2 * (renderString text.1 ++ ':' :: (gap ++ (text.2 ++
          membersTail inner outer gap texts))).length ≤ fuel →
        members? fuel (renderString text.1 ++ ':' :: (gap ++ (text.2 ++
          (membersTail inner outer gap texts ++ rest)))) = some (raws, rest) := by
  induction h generalizing text member with
  | nil =>
    obtain ⟨hkey, raw, hvalue, hread⟩ := hfirst
    refine ⟨[(text.1.toList.map pieceOf, raw)], fun seen => ?_, fun fuel rest hfuel => ?_⟩
    · simp only [membersToJson?, string?_pieces, hvalue, hkey]
      rfl
    · simp only [List.length_append, List.length_cons] at hfuel
      cases fuel with
      | zero => omega
      | succ fuel =>
        have hends := ends_membersTail inner gap houter [] rest
        have hclose : skipSpace (membersTail inner outer gap [] ++ rest) = '}' :: rest := by
          rw [membersTail, List.append_assoc, skipSpace_append houter.spaces]
          exact skipSpace_cons (by decide) rest
        apply members?_member hgap text.1 (hread fuel _ (by omega) hends)
        rw [hclose]
        rfl
  | @cons next nextMember texts members hnext htexts ih =>
    obtain ⟨hkey, raw, hvalue, hread⟩ := hfirst
    obtain ⟨raws, hvalues, hreads⟩ := ih hnext
    refine ⟨(text.1.toList.map pieceOf, raw) :: raws, fun seen => ?_, fun fuel rest hfuel => ?_⟩
    · simp only [membersToJson?, string?_pieces, hvalue, hvalues, hkey]
      rfl
    · have htail : membersTail inner outer gap (next :: texts) ++ rest =
          ',' :: (inner ++ (renderString next.1 ++ ':' :: (gap ++ (next.2 ++
            (membersTail inner outer gap texts ++ rest))))) := by
        simp [membersTail]
      have hends := ends_membersTail inner gap houter (next :: texts) rest
      have hcomma (text : List Char) : skipSpace (',' :: text) = ',' :: text :=
        skipSpace_cons (by decide) text
      simp only [membersTail, List.length_append, List.length_cons] at hfuel
      cases fuel with
      | zero => omega
      | succ fuel =>
        have hrest := hreads fuel rest (by
          simp only [List.length_append, List.length_cons]
          omega)
        apply members?_member hgap text.1 (hread fuel _ (by omega) hends)
        rw [htail, hcomma]
        simp only [members?_blanks hinner.spaces, hrest]
        rfl

theorem reads_empty (depth : Nat) : Reads (depth + 1) ['{', '}'] (.object []) := by
  refine ⟨.object [], by simp only [toJson?, membersToJson?, Option.map_some], ?_⟩
  intro fuel rest hfuel _
  cases fuel with
  | zero => cases hfuel
  | succ fuel => rfl

/-- Members that read make an object that reads, with its members in the order of their
    keys. -/
theorem reads_object (hinner : IsBreak inner) (houter : IsBreak outer)
    (hgap : ∀ c ∈ gap, isSpace c = true) {text : String × List Char} {member : String × Json}
    {texts : List (String × List Char)} {members : List (String × Json)}
    (hfirst : ReadsMember depth text member)
    (h : List.Forall₂ (ReadsMember depth) texts members) :
    Reads (depth + 1) ('{' :: (inner ++ renderString text.1 ++ ':' :: (gap ++ (text.2 ++
        membersTail inner outer gap texts))))
      (.object (sortedMembers (member :: members))) := by
  obtain ⟨raws, hvalues, hreads⟩ := members?_reads hinner houter hgap hfirst h
  refine ⟨.object raws, by rw [toJson?, hvalues]; rfl, fun fuel rest hfuel _ => ?_⟩
  simp only [List.length_append, List.length_cons] at hfuel
  cases fuel with
  | zero => omega
  | succ fuel =>
    have hmembers := hreads fuel rest (by
      simp only [List.length_append, List.length_cons]
      omega)
    have hquote : skipSpace (inner ++ (renderString text.1 ++ ':' :: (gap ++ (text.2 ++
        (membersTail inner outer gap texts ++ rest))))) = renderString text.1 ++ ':' ::
          (gap ++ (text.2 ++ (membersTail inner outer gap texts ++ rest))) := by
      rw [skipSpace_append hinner.spaces, renderString_append]
      exact skipSpace_cons (by decide) _
    simp only [List.cons_append, List.append_assoc]
    rw [value?, skipSpace_cons (by decide)]
    simp only [hquote, members?_blanks hinner.spaces, hmembers]
    rw [renderString_append]
    rfl

end Raw

end SessionLog
