/-
  SessionLog/Proofs/Json/Extent.lean
  ==================================
  **What the readers take from a text is nested.**

  Every reader of the grammar takes a nested part from the front of a text and leaves the
  rest. A value that is an array or an object is taken from its bracket on, and what is taken
  behind it goes up to the bracket that closes it.
-/
import SessionLog.Proofs.Json.Nesting
import SessionLog.Proofs.Text.Digits

namespace SessionLog

namespace Raw

open Place

/-! ### Nested parts -/

/-- The rest of a text behind a nested part. -/
def Passes (text rest : List Char) : Prop := ∃ front, text = front ++ rest ∧ Nested front

theorem Passes.refl (text : List Char) : Passes text text := ⟨[], rfl, .nil⟩

theorem Passes.trans {text between rest : List Char} (h : Passes text between)
    (hrest : Passes between rest) : Passes text rest := by
  obtain ⟨front, rfl, hfront⟩ := h
  obtain ⟨more, rfl, hmore⟩ := hrest
  exact ⟨front ++ more, (List.append_assoc _ _ _).symm, hfront.append hmore⟩

theorem passes_append (front rest : List Char) (h : front.all isPlain = true) :
    Passes (front ++ rest) rest := ⟨front, rfl, nested_of_isPlain (List.all_eq_true.1 h)⟩

theorem passes_cons {c : Char} (h : isPlain c = true) (rest : List Char) :
    Passes (c :: rest) rest := by
  apply passes_append [c] rest
  rw [List.all_cons, h]
  rfl

theorem passes_dropWhile {p : Char → Bool} (hmarks : marks.any p = false)
    (text : List Char) : Passes text (text.dropWhile p) := by
  have hfront : (text.takeWhile p).all isPlain = true := by
    rw [List.all_eq_true]
    intro c hc
    exact isPlain_of_holds hmarks (List.all_eq_true.1 List.all_takeWhile c hc)
  have hpart := passes_append _ (text.dropWhile p) hfront
  rwa [List.takeWhile_append_dropWhile] at hpart

theorem Passes.enclose {opening closing : Char} (hopening : isOpening opening = true)
    (hclosing : isClosing closing = true) {text rest : List Char}
    (h : Passes text (closing :: rest)) : Passes (opening :: text) rest := by
  obtain ⟨body, rfl, hbody⟩ := h
  refine ⟨opening :: (body ++ [closing]), ?_, hbody.enclose hopening hclosing⟩
  simp

/-! ### Tokens -/

theorem passes_skipSpace (text : List Char) : Passes text (skipSpace text) :=
  passes_dropWhile rfl text

theorem step_inside_of_hexValue? {c : Char} {n : Nat} (h : Text.hexValue? c = some n) :
    step (.inside 0) c = some (.inside 0) := by
  apply step_inside
  · rintro rfl
    cases h
  · rintro rfl
    cases h

/-- The cases are those of the reader. A backslash at the very end of a text is none of an
    escape, but there is no closing quote behind it. -/
theorem exists_string_of_stringBody {seen : List Piece} {text rest : List Char}
    {pieces : List Piece} (h : stringBody seen text = some (pieces, rest)) :
    ∃ body, text = body ++ rest ∧ walk (.inside 0) body = some (.outside 0) := by
  have hbackslash : step (.inside 0) '\\' = some (.escaped 0) := rfl
  fun_induction stringBody seen text with
  | case1 => cases h
  | case2 seen rest =>
    cases h
    exact ⟨['"'], rfl, rfl⟩
  | case3 seen a b c d text code hcode ih =>
    obtain ⟨body, rfl, hwalk⟩ := ih h
    simp only [hexUnit?, Option.bind_eq_bind, Option.bind_eq_some_iff] at hcode
    obtain ⟨_, ha, _, hb, _, hc, _, hd, -⟩ := hcode
    have hunit : step (.escaped 0) 'u' = some (.inside 0) := rfl
    refine ⟨'\\' :: 'u' :: a :: b :: c :: d :: body, rfl, ?_⟩
    simp [hbackslash, hunit, step_inside_of_hexValue? ha, step_inside_of_hexValue? hb,
      step_inside_of_hexValue? hc, step_inside_of_hexValue? hd, hwalk]
  | case4 => cases h
  | case5 seen c text hunit escaped hescape ih =>
    obtain ⟨body, rfl, hwalk⟩ := ih h
    have hstep : step (.escaped 0) c = some (.inside 0) :=
      if_pos (Or.inr (Option.isSome_of_eq_some hescape))
    refine ⟨'\\' :: c :: body, rfl, ?_⟩
    simp [hbackslash, hstep, hwalk]
  | case6 => cases h
  | case7 => cases h
  | case8 seen c text hquote hunit hescape hlow ih =>
    obtain ⟨body, rfl, hwalk⟩ := ih h
    have hslash : c ≠ '\\' := by
      intro hc
      cases hbody : body ++ rest with
      | nil =>
        rw [hbody] at h
        cases h
      | cons d more => exact hescape d more hc hbody
    refine ⟨c :: body, rfl, ?_⟩
    rw [walk_cons, step_inside hquote hslash, Option.bind_some, hwalk]

theorem passes_of_stringBody {seen : List Piece} {text rest : List Char} {pieces : List Piece}
    (h : stringBody seen text = some (pieces, rest)) : Passes ('"' :: text) rest := by
  obtain ⟨body, rfl, hwalk⟩ := exists_string_of_stringBody h
  exact ⟨'"' :: body, rfl, hwalk⟩

theorem passes_of_digits {text rest : List Char} {ds : List Nat}
    (h : digits text = (ds, rest)) : Passes text rest := by
  cases h
  exact passes_dropWhile rfl text

theorem passes_of_fraction? {text rest : List Char} {fraction : Option (List Nat)}
    (h : fraction? text = some (fraction, rest)) : Passes text rest := by
  rw [fraction?.eq_def] at h
  split at h
  · split at h
    · cases h
    · rename_i hdigits
      cases h
      exact (passes_cons rfl _).trans (passes_of_digits hdigits)
  · cases h
    exact .refl _

theorem passes_of_exponentSign {text rest : List Char} {negative : Bool}
    (h : exponentSign text = (negative, rest)) : Passes text rest := by
  rw [exponentSign.eq_def] at h
  split at h
  · cases h
    exact passes_cons rfl _
  · cases h
    exact passes_cons rfl _
  · cases h
    exact .refl _

theorem passes_of_exponent? {text rest : List Char} {exponent : Option (Bool × List Nat)}
    (h : exponent? text = some (exponent, rest)) : Passes text rest := by
  rw [exponent?.eq_def] at h
  split at h
  · split at h
    · rename_i hmark
      have hplain (text : List Char) {c : Char} (hc : c = 'e' ∨ c = 'E') :
          Passes (c :: text) text := by
        rcases hc with rfl | rfl <;> exact passes_cons rfl text
      split at h
      rename_i hsign
      split at h
      · cases h
      · rename_i hdigits
        cases h
        exact (hplain _ hmark).trans
          ((passes_of_exponentSign hsign).trans (passes_of_digits hdigits))
    · cases h
      exact .refl _
  · cases h
    exact .refl _

theorem passes_of_unsignedNumeral? {negative : Bool} {text rest : List Char} {numeral : Numeral}
    (h : unsignedNumeral? negative text = some (numeral, rest)) : Passes text rest := by
  rw [unsignedNumeral?] at h
  split at h
  · cases h
  · cases h
  · rename_i hdigits
    obtain ⟨⟨fraction, behind⟩, hfraction, h⟩ := Option.bind_eq_some_iff.1 h
    obtain ⟨⟨exponent, behind⟩, hexponent, h⟩ := Option.bind_eq_some_iff.1 h
    cases h
    exact (passes_of_digits hdigits).trans
      ((passes_of_fraction? hfraction).trans (passes_of_exponent? hexponent))

theorem passes_of_numeral? {text rest : List Char} {numeral : Numeral}
    (h : numeral? text = some (numeral, rest)) : Passes text rest := by
  rw [numeral?.eq_def] at h
  split at h
  · exact (passes_cons rfl _).trans (passes_of_unsignedNumeral? h)
  · exact passes_of_unsignedNumeral? h

/-! ### Values -/

/-- Where a value lies in a text: an array or an object is in brackets. -/
def LiesIn (text rest : List Char) : Raw → Prop
  | .array _ => ∃ inner, skipSpace text = '[' :: inner ∧ Passes inner (']' :: rest)
  | .object _ => ∃ inner, skipSpace text = '{' :: inner ∧ Passes inner ('}' :: rest)
  | _ => Passes text rest

theorem LiesIn.passes {text rest : List Char} {raw : Raw} (h : raw.LiesIn text rest) :
    Passes text rest := by
  have hspace := passes_skipSpace text
  cases raw with
  | array =>
    obtain ⟨inner, hinner, hpasses⟩ := h
    rw [hinner] at hspace
    exact hspace.trans (hpasses.enclose rfl rfl)
  | object =>
    obtain ⟨inner, hinner, hpasses⟩ := h
    rw [hinner] at hspace
    exact hspace.trans (hpasses.enclose rfl rfl)
  | _ => exact h

/-- What the readers take with some fuel. -/
structure TakesNested (fuel : Nat) : Prop where
  value : ∀ {text rest raw}, value? fuel text = some (raw, rest) → raw.LiesIn text rest
  items : ∀ {text rest items}, items? fuel text = some (items, rest) → Passes text (']' :: rest)
  members : ∀ {text rest members}, members? fuel text = some (members, rest) →
    Passes text ('}' :: rest)

theorem value?_liesIn {fuel : Nat} (ih : TakesNested fuel) {text rest : List Char} {raw : Raw}
    (h : value? (fuel + 1) text = some (raw, rest)) : raw.LiesIn text rest := by
  have hspace := passes_skipSpace text
  rw [value?] at h
  split at h
  · rename_i hword
    cases h
    rw [hword] at hspace
    exact hspace.trans (passes_append ['n', 'u', 'l', 'l'] _ rfl)
  · rename_i hword
    cases h
    rw [hword] at hspace
    exact hspace.trans (passes_append ['t', 'r', 'u', 'e'] _ rfl)
  · rename_i hword
    cases h
    rw [hword] at hspace
    exact hspace.trans (passes_append ['f', 'a', 'l', 's', 'e'] _ rfl)
  · rename_i hquote
    obtain ⟨⟨pieces, behind⟩, hbody, h⟩ := Option.bind_eq_some_iff.1 h
    cases h
    rw [hquote] at hspace
    exact hspace.trans (passes_of_stringBody hbody)
  · rename_i inner hbracket
    split at h
    · rename_i hempty
      cases h
      have hinner := passes_skipSpace inner
      rw [hempty] at hinner
      exact ⟨inner, hbracket, hinner⟩
    · obtain ⟨⟨items, behind⟩, hitems, h⟩ := Option.bind_eq_some_iff.1 h
      cases h
      exact ⟨inner, hbracket, ih.items hitems⟩
  · rename_i inner hbrace
    split at h
    · rename_i hempty
      cases h
      have hinner := passes_skipSpace inner
      rw [hempty] at hinner
      exact ⟨inner, hbrace, hinner⟩
    · obtain ⟨⟨members, behind⟩, hmembers, h⟩ := Option.bind_eq_some_iff.1 h
      cases h
      exact ⟨inner, hbrace, ih.members hmembers⟩
  · obtain ⟨⟨numeral, behind⟩, hnumeral, h⟩ := Option.bind_eq_some_iff.1 h
    cases h
    exact hspace.trans (passes_of_numeral? hnumeral)

theorem items?_passes {fuel : Nat} (ih : TakesNested fuel) {text rest : List Char}
    {items : List Raw} (h : items? (fuel + 1) text = some (items, rest)) :
    Passes text (']' :: rest) := by
  rw [items?] at h
  obtain ⟨⟨item, behind⟩, hitem, h⟩ := Option.bind_eq_some_iff.1 h
  have hspace := (ih.value hitem).passes.trans (passes_skipSpace behind)
  simp only at h
  split at h
  · rename_i hclose
    cases h
    rwa [hclose] at hspace
  · rename_i hcomma
    obtain ⟨⟨more, behind⟩, hmore, h⟩ := Option.bind_eq_some_iff.1 h
    cases h
    rw [hcomma] at hspace
    exact (hspace.trans (passes_cons rfl _)).trans (ih.items hmore)
  · cases h

theorem members?_passes {fuel : Nat} (ih : TakesNested fuel) {text rest : List Char}
    {members : List (List Piece × Raw)} (h : members? (fuel + 1) text = some (members, rest)) :
    Passes text ('}' :: rest) := by
  have hspace := passes_skipSpace text
  rw [members?] at h
  split at h
  · rename_i hquote
    obtain ⟨⟨key, behind⟩, hkey, h⟩ := Option.bind_eq_some_iff.1 h
    rw [hquote] at hspace
    have hname := (hspace.trans (passes_of_stringBody hkey)).trans (passes_skipSpace behind)
    simp only at h
    split at h
    · rename_i hcolon
      obtain ⟨⟨value, behind⟩, hvalue, h⟩ := Option.bind_eq_some_iff.1 h
      rw [hcolon] at hname
      have hmember := ((hname.trans (passes_cons rfl _)).trans (ih.value hvalue).passes).trans
        (passes_skipSpace behind)
      simp only at h
      split at h
      · rename_i hclose
        cases h
        rwa [hclose] at hmember
      · rename_i hcomma
        obtain ⟨⟨more, behind⟩, hmore, h⟩ := Option.bind_eq_some_iff.1 h
        cases h
        rw [hcomma] at hmember
        exact (hmember.trans (passes_cons rfl _)).trans (ih.members hmore)
      · cases h
    · cases h
  · cases h

theorem takesNested (fuel : Nat) : TakesNested fuel := by
  induction fuel with
  | zero =>
    constructor
    · intro text rest raw h
      cases h
    · intro text rest items h
      cases h
    · intro text rest members h
      cases h
  | succ fuel ih =>
    constructor
    · exact value?_liesIn ih
    · exact items?_passes ih
    · exact members?_passes ih

/-! ### Whole texts -/

/-- A whole text of an array or an object is in brackets, with blanks around it. -/
theorem isEnclosed_of_parse? {text : List Char} {raw : Raw} (h : parse? text = some raw)
    (hraw : (∃ items, raw = .array items) ∨ ∃ members, raw = .object members) :
    IsEnclosed text := by
  have hblank {blanks : List Char} (h : ∀ c ∈ blanks, isSpace c = true) :
      Text.isAllBlank blanks = true := by
    rw [Text.isAllBlank_iff]
    intro c hc
    have hspace := h c hc
    simp only [isSpace, Bool.or_eq_true, beq_iff_eq] at hspace
    rcases hspace with ((rfl | rfl) | rfl) | rfl <;> rfl
  have hfront : Text.isAllBlank (text.takeWhile isSpace) = true :=
    hblank (List.all_eq_true.1 List.all_takeWhile)
  have htext : text = text.takeWhile isSpace ++ skipSpace text :=
    List.takeWhile_append_dropWhile.symm
  rw [parse?] at h
  split at h
  · rename_i hvalue
    split at h
    · rename_i hrest
      cases h
      have hback := hblank (List.all_eq_true.1 hrest)
      have hlies := (takesNested _).value hvalue
      rcases hraw with ⟨items, rfl⟩ | ⟨members, rfl⟩
      · obtain ⟨inner, hinner, body, hbody, hnested⟩ := hlies
        rw [hinner, hbody] at htext
        exact ⟨_, '[', body, ']', _, htext, hfront, rfl, hnested, rfl, hback⟩
      · obtain ⟨inner, hinner, body, hbody, hnested⟩ := hlies
        rw [hinner, hbody] at htext
        exact ⟨_, '{', body, '}', _, htext, hfront, rfl, hnested, rfl, hback⟩
    · cases h
  · cases h

end Raw

end SessionLog
