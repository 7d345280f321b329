/-
  SessionLog/Proofs/Json/Nesting.lean
  ===================================
  **A text in brackets does not end with another one.**

  A walk over a text keeps whether it is inside a string and how deep the brackets outside of
  strings nest. What the grammar reads is nested: a walk that comes to it outside of a string
  leaves it at the same depth. Of an array or an object the same holds between its brackets.

  So no proper end of such a text is one itself. Cut between the brackets, but outside of a
  string, the end closes a bracket too many. Cut inside of a string, a walk from the cut and
  the walk over the whole text stay inverted: where the one is inside of a string the other
  is outside.
-/
import SessionLog.Json.Raw
import SessionLog.Proofs.Text.Blank

namespace SessionLog

namespace Raw

/-! ### Walks -/

def isOpening (c : Char) : Bool := c == '[' || c == '{'

def isClosing (c : Char) : Bool := c == ']' || c == '}'

/-- Where a walk is, with the depth of the brackets around. -/
inductive Place where
  | outside (depth : Nat)
  | inside (depth : Nat)
  /-- Inside of a string, behind a backslash. -/
  | escaped (depth : Nat)
deriving DecidableEq, Repr

namespace Place

def step : Place → Char → Option Place
  | .outside depth, c =>
    if c = '"' then some (.inside depth)
    else if c = '\\' then none
    else if isOpening c then some (.outside (depth + 1))
    else if isClosing c then
      match depth with
      | 0 => none
      | depth + 1 => some (.outside depth)
    else some (.outside depth)
  | .inside depth, c =>
    if c = '"' then some (.outside depth)
    else if c = '\\' then some (.escaped depth)
    else some (.inside depth)
  | .escaped depth, c =>
    if c = 'u' ∨ (shortEscape? c).isSome then some (.inside depth) else none

def walk (place : Place) (text : List Char) : Option Place := text.foldlM step place

@[simp] theorem walk_cons (place : Place) (c : Char) (text : List Char) :
    place.walk (c :: text) = (place.step c).bind fun next => next.walk text :=
  List.foldlM_cons

@[simp] theorem walk_append (place : Place) (front back : List Char) :
    place.walk (front ++ back) = (place.walk front).bind fun next => next.walk back :=
  List.foldlM_append

/-- The characters that a walk outside of strings does not pass by. -/
def marks : List Char := ['"', '\\', '[', '{', ']', '}']

def isPlain (c : Char) : Bool := !marks.contains c

/-- Characters of a kind that no mark is of are passed by. -/
theorem isPlain_of_holds {p : Char → Bool} (hmarks : marks.any p = false) {c : Char}
    (h : p c = true) : isPlain c = true := by
  rw [isPlain, Bool.not_eq_true', List.contains_eq_mem, decide_eq_false_iff_not]
  intro hc
  exact List.any_eq_false.1 hmarks c hc h

theorem step_outside_of_isPlain {c : Char} (h : isPlain c = true) (depth : Nat) :
    step (.outside depth) c = some (.outside depth) := by
  simp only [isPlain, marks, List.contains_cons, List.contains_nil, Bool.or_false,
    Bool.not_eq_true', Bool.or_eq_false_iff, beq_eq_false_iff_ne] at h
  simp [step, isOpening, isClosing, h]

theorem step_outside_of_isOpening {c : Char} (h : isOpening c = true) (depth : Nat) :
    step (.outside depth) c = some (.outside (depth + 1)) := by
  simp only [isOpening, Bool.or_eq_true, beq_iff_eq] at h
  rcases h with rfl | rfl <;> rfl

theorem step_outside_of_isClosing {c : Char} (h : isClosing c = true) (depth : Nat) :
    step (.outside (depth + 1)) c = some (.outside depth) := by
  simp only [isClosing, Bool.or_eq_true, beq_iff_eq] at h
  rcases h with rfl | rfl <;> rfl

theorem step_inside {c : Char} (hquote : c ≠ '"') (hslash : c ≠ '\\') (depth : Nat) :
    step (.inside depth) c = some (.inside depth) := by
  rw [step, if_neg hquote, if_neg hslash]

/-- What a step outside of strings can do. -/
theorem step_outside_cases {depth : Nat} {c : Char} {next : Place}
    (h : step (.outside depth) c = some next) :
    (c = '"' ∧ next = .inside depth) ∨ (isPlain c = true ∧ next = .outside depth) ∨
      (isOpening c = true ∧ next = .outside (depth + 1)) ∨
      (isClosing c = true ∧ ∃ n, depth = n + 1 ∧ next = .outside n) := by
  simp only [step] at h
  split at h
  · cases h
    exact Or.inl ⟨‹_›, rfl⟩
  · split at h
    · cases h
    · split at h
      · cases h
        exact Or.inr (Or.inr (Or.inl ⟨‹_›, rfl⟩))
      · split at h
        · split at h
          · cases h
          · cases h
            exact Or.inr (Or.inr (Or.inr ⟨‹_›, _, rfl, rfl⟩))
        · cases h
          refine Or.inr (Or.inl ⟨?_, rfl⟩)
          simp_all [isPlain, marks, isOpening, isClosing]

/-! ### Walks at other depths -/

def deeper : Place → Place
  | .outside depth => .outside (depth + 1)
  | .inside depth => .inside (depth + 1)
  | .escaped depth => .escaped (depth + 1)

theorem step_deeper {place next : Place} {c : Char} (h : place.step c = some next) :
    place.deeper.step c = some next.deeper := by
  cases place with
  | outside depth =>
    rcases step_outside_cases h with ⟨rfl, rfl⟩ | ⟨hc, rfl⟩ | ⟨hc, rfl⟩ | ⟨hc, n, rfl, rfl⟩
    · rfl
    · exact step_outside_of_isPlain hc _
    · exact step_outside_of_isOpening hc _
    · exact step_outside_of_isClosing hc _
  | inside depth =>
    by_cases hquote : c = '"'
    · subst hquote
      cases h
      rfl
    · by_cases hslash : c = '\\'
      · subst hslash
        cases h
        rfl
      · rw [step_inside hquote hslash] at h
        cases h
        exact step_inside hquote hslash _
  | escaped depth =>
    simp only [step] at h
    split at h
    · cases h
      exact if_pos ‹_›
    · cases h

theorem walk_deeper {place next : Place} {text : List Char} (h : place.walk text = some next) :
    place.deeper.walk text = some next.deeper := by
  induction text generalizing place with
  | nil =>
    cases h
    rfl
  | cons c text ih =>
    rw [walk_cons, Option.bind_eq_some_iff] at h
    obtain ⟨between, hstep, hwalk⟩ := h
    rw [walk_cons, step_deeper hstep, Option.bind_some, ih hwalk]

/-! ### Walks of which one is inside of a string where the other is outside -/

def Inverted (p q : Place) : Prop :=
  (∃ a b, p = .outside a ∧ q = .inside b) ∨ ∃ a b, p = .inside a ∧ q = .outside b

theorem Inverted.symm {p q : Place} (h : Inverted p q) : Inverted q p := by
  rcases h with ⟨a, b, hp, hq⟩ | ⟨a, b, hp, hq⟩
  · exact Or.inr ⟨b, a, hq, hp⟩
  · exact Or.inl ⟨b, a, hq, hp⟩

/-- The one outside lets no backslash pass, so the one inside is never behind one. -/
theorem Inverted.step {p q p' q' : Place} {c : Char} (h : Inverted p q)
    (hp : p.step c = some p') (hq : q.step c = some q') : Inverted p' q' := by
  have hone {a b : Nat} {p' q' : Place} (hp : Place.step (.outside a) c = some p')
      (hq : Place.step (.inside b) c = some q') : Inverted p' q' := by
    rcases step_outside_cases hp with ⟨rfl, rfl⟩ | hother
    · cases hq
      exact Or.inr ⟨_, _, rfl, rfl⟩
    · have hquote : c ≠ '"' := by
        rintro rfl
        simp [isPlain, marks, isOpening, isClosing] at hother
      have hslash : c ≠ '\\' := by
        rintro rfl
        cases hp
      rw [step_inside hquote hslash] at hq
      cases hq
      rcases hother with ⟨-, rfl⟩ | ⟨-, rfl⟩ | ⟨-, _, -, rfl⟩ <;> exact Or.inl ⟨_, _, rfl, rfl⟩
  rcases h with ⟨a, b, rfl, rfl⟩ | ⟨a, b, rfl, rfl⟩
  · exact hone hp hq
  · exact (hone hq hp).symm

theorem Inverted.walk {p q p' q' : Place} {text : List Char} (h : Inverted p q)
    (hp : p.walk text = some p') (hq : q.walk text = some q') : Inverted p' q' := by
  induction text generalizing p q with
  | nil =>
    cases hp
    cases hq
    exact h
  | cons c text ih =>
    rw [walk_cons, Option.bind_eq_some_iff] at hp hq
    obtain ⟨p₁, hp₁, hp⟩ := hp
    obtain ⟨q₁, hq₁, hq⟩ := hq
    exact ih (h.step hp₁ hq₁) hp hq

theorem not_inverted_outside {a b : Nat} : ¬Inverted (.outside a) (.outside b) := by
  rintro (⟨_, _, -, h⟩ | ⟨_, _, h, -⟩) <;> cases h

end Place

open Place

/-! ### Nested texts -/

/-- A walk that comes to the text outside of strings leaves it at the same depth, and closes no
    bracket that was opened in front of it. -/
def Nested (text : List Char) : Prop := walk (.outside 0) text = some (.outside 0)

instance (text : List Char) : Decidable (Nested text) := inferInstanceAs (Decidable (_ = _))

theorem Nested.walk_eq {text : List Char} (h : Nested text) (depth : Nat) :
    walk (.outside depth) text = some (.outside depth) := by
  induction depth with
  | zero => exact h
  | succ depth ih => exact walk_deeper ih

theorem Nested.nil : Nested [] := rfl

theorem Nested.append {front back : List Char} (hfront : Nested front) (hback : Nested back) :
    Nested (front ++ back) := by
  rw [Nested, walk_append, hfront, Option.bind_some, hback]

theorem nested_of_isPlain {text : List Char} (h : ∀ c ∈ text, isPlain c = true) :
    Nested text := by
  induction text with
  | nil => exact .nil
  | cons c text ih =>
    rw [Nested, walk_cons, step_outside_of_isPlain (h c List.mem_cons_self), Option.bind_some]
    exact ih fun d hd => h d (List.mem_cons_of_mem _ hd)

theorem Nested.enclose {opening closing : Char} (hopening : isOpening opening = true)
    (hclosing : isClosing closing = true) {body : List Char} (h : Nested body) :
    Nested (opening :: (body ++ [closing])) := by
  rw [Nested, walk_cons, step_outside_of_isOpening hopening, Option.bind_some, walk_append,
    h.walk_eq, Option.bind_some, walk_cons, step_outside_of_isClosing hclosing]
  rfl

example : Nested "\"[\\\"\", [1, \x7b\"]\": null\x7d]".toList := by decide

/-! ### Texts in brackets -/

/-- A nested text in brackets, with blanks around it. -/
def IsEnclosed (text : List Char) : Prop :=
  ∃ front opening body closing back, text = front ++ opening :: (body ++ closing :: back) ∧
    Text.isAllBlank front = true ∧ isOpening opening = true ∧ Nested body ∧
    isClosing closing = true ∧ Text.isAllBlank back = true

theorem isPlain_of_isBlank {c : Char} (h : Text.isBlank c = true) : isPlain c = true :=
  isPlain_of_holds rfl h

theorem step_escaped_of_isBlank {c : Char} (h : Text.isBlank c = true) (depth : Nat) :
    step (.escaped depth) c = none := by
  have hescapes : ['u', '"', '\\', '/', 'b', 'f', 'n', 'r', 't'].any Text.isBlank = false := rfl
  have hne : ∀ d ∈ ['u', '"', '\\', '/', 'b', 'f', 'n', 'r', 't'], c ≠ d := by
    rintro d hd rfl
    exact List.any_eq_false.1 hescapes c hd h
  simp only [List.forall_mem_cons] at hne
  simp [step, shortEscape?, hne]

theorem nested_of_isAllBlank {text : List Char} (h : Text.isAllBlank text = true) : Nested text :=
  nested_of_isPlain fun c hc => isPlain_of_isBlank (Text.isAllBlank_iff.1 h c hc)

theorem IsEnclosed.nested {text : List Char} (h : IsEnclosed text) : Nested text := by
  obtain ⟨front, opening, body, closing, back, rfl, hfront, hopening, hbody, hclosing, hback⟩ := h
  have hparts : front ++ opening :: (body ++ closing :: back) =
      front ++ (opening :: (body ++ [closing]) ++ back) := by
    simp
  rw [hparts]
  exact (nested_of_isAllBlank hfront).append
    ((hbody.enclose hopening hclosing).append (nested_of_isAllBlank hback))

/-- A text in brackets begins with a blank or with its bracket, and neither goes on with an
    escape. -/
theorem IsEnclosed.walk_escaped {text : List Char} (h : IsEnclosed text) (depth : Nat) :
    walk (.escaped depth) text = none := by
  obtain ⟨front, opening, body, closing, back, rfl, hfront, hopening, -⟩ := h
  cases front with
  | nil =>
    have hstep : step (.escaped depth) opening = none := by
      simp only [isOpening, Bool.or_eq_true, beq_iff_eq] at hopening
      rcases hopening with rfl | rfl <;> rfl
    rw [List.nil_append, walk_cons, hstep, Option.bind_none]
  | cons c front =>
    have hblank := Text.isAllBlank_iff.1 hfront c List.mem_cons_self
    rw [List.cons_append, walk_cons, step_escaped_of_isBlank hblank, Option.bind_none]

theorem IsEnclosed.not_isAllBlank {text : List Char} (h : IsEnclosed text) :
    Text.isAllBlank text = false := by
  obtain ⟨front, opening, body, closing, back, rfl, -, hopening, -⟩ := h
  rw [← Bool.not_eq_true, Text.isAllBlank_iff]
  intro hblank
  have hplain := isPlain_of_isBlank (hblank opening (by simp))
  simp only [isOpening, Bool.or_eq_true, beq_iff_eq] at hopening
  rcases hopening with rfl | rfl <;> cases hplain

theorem IsEnclosed.append_blanks {front text back : List Char} (h : IsEnclosed text)
    (hfront : Text.isAllBlank front = true) (hback : Text.isAllBlank back = true) :
    IsEnclosed (front ++ (text ++ back)) := by
  obtain ⟨before, opening, body, closing, behind, rfl, hbefore, hopening, hbody, hclosing,
    hbehind⟩ := h
  refine ⟨front ++ before, opening, body, closing, behind ++ back, ?_,
    Text.isAllBlank_append.2 ⟨hfront, hbefore⟩, hopening, hbody, hclosing,
    Text.isAllBlank_append.2 ⟨hbehind, hback⟩⟩
  simp

/-- A text that is cut in two has a given character of it behind the cut or in front of it. -/
theorem cut_at {front back left right : List Char} {c : Char}
    (h : front ++ back = left ++ c :: right) :
    (∃ more, left = front ++ more ∧ back = more ++ c :: right) ∨
      ∃ more, front = left ++ c :: more ∧ right = more ++ back := by
  rcases List.append_eq_append_iff.1 h with ⟨more, hleft, hback⟩ | ⟨more, hfront, hright⟩
  · exact Or.inl ⟨more, hleft, hback⟩
  · cases more with
    | nil => exact Or.inl ⟨[], by simpa using hfront.symm, hright.symm⟩
    | cons d more =>
      obtain ⟨rfl, hrest⟩ := List.cons.inj hright
      exact Or.inr ⟨more, hfront, hrest⟩

/-- Behind a cut between the brackets of a text there is no text in brackets. The walk from the
    first bracket up to the cut says why not. -/
theorem not_isEnclosed_of_nested {inner rest blanks : List Char} {closing : Char}
    (hbody : Nested (inner ++ rest)) (hclosing : isClosing closing = true)
    (hblanks : Text.isAllBlank blanks = true) : ¬IsEnclosed (rest ++ closing :: blanks) := by
  intro hback
  rw [Nested, walk_append, Option.bind_eq_some_iff] at hbody
  obtain ⟨place, -, hrest⟩ := hbody
  have hclose : walk (.outside 1) (closing :: blanks) = some (.outside 0) := by
    rw [walk_cons, step_outside_of_isClosing hclosing 0, Option.bind_some]
    exact nested_of_isAllBlank hblanks
  have htotal : place.deeper.walk (rest ++ closing :: blanks) = some (.outside 0) := by
    rw [walk_append, walk_deeper hrest, Option.bind_some]
    exact hclose
  cases place with
  | outside depth =>
    have hsame := hback.nested.walk_eq (depth + 1)
    rw [deeper, hsame] at htotal
    cases htotal
  | inside depth =>
    have hinverted : Inverted (.outside 0) (.inside (depth + 1)) := Or.inl ⟨_, _, rfl, rfl⟩
    exact not_inverted_outside (hinverted.walk hback.nested htotal)
  | escaped depth =>
    rw [deeper, hback.walk_escaped] at htotal
    cases htotal

/-- Cut behind its first bracket or later, a text in brackets does not end with another. -/
theorem IsEnclosed.not_isEnclosed_of_append {front back : List Char}
    (h : IsEnclosed (front ++ back)) (hfront : Text.isAllBlank front = false) :
    ¬IsEnclosed back := by
  obtain ⟨blanks, opening, body, closing, blanks', hparts, hblanks, hopening, hbody, hclosing,
    hblanks'⟩ := h
  rcases cut_at hparts with ⟨more, rfl, -⟩ | ⟨inner, rfl, hinner⟩
  · rw [(Text.isAllBlank_append.1 hblanks).1] at hfront
    cases hfront
  · rcases cut_at hinner.symm with ⟨rest, rfl, rfl⟩ | ⟨more, -, rfl⟩
    · exact not_isEnclosed_of_nested hbody hclosing hblanks'
    · -- only blanks are left behind the last bracket
      intro hback
      have hnot := hback.not_isAllBlank
      rw [(Text.isAllBlank_append.1 hblanks').2] at hnot
      cases hnot

end Raw

end SessionLog
