/-
  SessionLog/Proofs/Json/Continuation.lean
  ========================================
  **What a value reader takes does not depend on what follows.**

  A value that is read from a text is read just so from any longer text, if what follows ends
  a value: every reader leaves its rest with the longer end behind it. Nor does it depend on
  the fuel, as long as there is some for every character that is taken. So a whole text of a
  value reads as that value wherever it stands in a document.
-/
import SessionLog.Proofs.Json.Extent
import SessionLog.Proofs.Json.Numbers

namespace SessionLog

namespace Raw

/-! ### Tokens -/

variable {text rest more : List Char}

theorem skipSpace_append_of_cons {c : Char} {inner : List Char} (h : skipSpace text = c :: inner)
    (more : List Char) : skipSpace (text ++ more) = c :: (inner ++ more) := by
  rw [skipSpace] at h
  rw [skipSpace, List.dropWhile_append, h]
  rfl

/-- The cases are those of the reader. Nothing in front of the closing quote is at the end of
    the text, so no escape takes anything from what follows. -/
theorem stringBody_append {seen pieces : List Piece}
    (h : stringBody seen text = some (pieces, rest)) (more : List Char) :
    stringBody seen (text ++ more) = some (pieces, rest ++ more) := by
  fun_induction stringBody seen text with
  | case1 => cases h
  | case2 seen rest =>
    cases h
    rfl
  | case3 seen a b c d text code hcode ih =>
    simp only [List.cons_append, stringBody, hcode]
    exact ih h
  | case4 => cases h
  | case5 seen c text hunit escaped hescape ih =>
    have hplain : c ≠ 'u' := by
      rintro rfl
      cases hescape
    rw [List.cons_append, List.cons_append, stringBody, hescape]
    · exact ih h
    · intro _ _ _ _ _ heq
      exact absurd heq hplain
  | case6 => cases h
  | case7 => cases h
  | case8 seen c text hquote hunit hescape hlow ih =>
    have hslash : c ≠ '\\' := by
      rintro rfl
      cases text with
      | nil => cases h
      | cons d text => exact hescape d text rfl rfl
    rw [List.cons_append, stringBody, if_neg hlow]
    · exact ih h
    · exact hquote
    · intro _ _ _ _ _ heq
      exact absurd heq hslash
    · intro _ _ heq
      exact absurd heq hslash

theorem digits_append_more {ds : List Nat} (h : digits text = (ds, rest)) (hmore : Ends more) :
    digits (text ++ more) = (ds, rest ++ more) := by
  cases h
  have hall : Text.AllDigits (Text.leadingDigits text) :=
    List.all_eq_true.1 List.all_takeWhile
  have hrest : Text.NoDigit (text.dropWhile Text.isDigit ++ more) := by
    have hhead := List.head?_dropWhile_not Text.isDigit text
    cases hdrop : text.dropWhile Text.isDigit with
    | nil => exact hmore.noDigit
    | cons c behind =>
      rw [hdrop] at hhead
      exact .cons hhead _
  have htext : text ++ more = Text.leadingDigits text ++ (text.dropWhile Text.isDigit ++ more) := by
    rw [← List.append_assoc, Text.leadingDigits, List.takeWhile_append_dropWhile]
  rw [htext, digits_append hall hrest]

theorem fraction?_append_more {fraction : Option (List Nat)}
    (h : fraction? text = some (fraction, rest)) (hmore : Ends more) :
    fraction? (text ++ more) = some (fraction, rest ++ more) := by
  cases text with
  | nil =>
    cases h
    exact fraction?_of_ends hmore
  | cons c text =>
    by_cases hpoint : c = '.'
    · subst hpoint
      cases hdigits : digits text with
      | mk ds behind =>
        rw [fraction?, hdigits] at h
        rw [List.cons_append, fraction?, digits_append_more hdigits hmore]
        cases ds with
        | nil => cases h
        | cons d ds =>
          cases h
          rfl
    · have hnone (text : List Char) : fraction? (c :: text) = some (none, c :: text) := by
        rw [fraction?]
        intro _ heq
        exact hpoint (List.cons.inj heq).1
      rw [hnone] at h
      cases h
      exact hnone (text ++ more)

theorem exponentSign_append {after : List Char} {negative : Bool} (hne : text ≠ [])
    (h : exponentSign text = (negative, after)) (more : List Char) :
    exponentSign (text ++ more) = (negative, after ++ more) := by
  cases text with
  | nil => exact absurd rfl hne
  | cons c text =>
    rw [exponentSign.eq_def] at h
    split at h
    · rename_i heq
      cases h
      cases heq
      rfl
    · rename_i heq
      cases h
      cases heq
      rfl
    · rename_i hminus hplus
      cases h
      rw [List.cons_append, exponentSign]
      · intro _ heq
        exact hminus text (congrArg (· :: text) (List.cons.inj heq).1)
      · intro _ heq
        exact hplus text (congrArg (· :: text) (List.cons.inj heq).1)

theorem exponent?_append_more {exponent : Option (Bool × List Nat)}
    (h : exponent? text = some (exponent, rest)) (hmore : Ends more) :
    exponent? (text ++ more) = some (exponent, rest ++ more) := by
  cases text with
  | nil =>
    cases h
    exact exponent?_of_ends hmore
  | cons c text =>
    rw [exponent?] at h
    rw [List.cons_append, exponent?]
    split at h
    · rename_i hmark
      rw [if_pos hmark]
      cases hsign : exponentSign text with
      | mk negative after =>
        cases hdigits : digits after with
        | mk ds behind =>
          rw [hsign] at h
          simp only [hdigits] at h
          cases ds with
          | nil => cases h
          | cons d ds =>
            have hne : text ≠ [] := by
              rintro rfl
              cases hsign
              cases hdigits
            cases h
            rw [exponentSign_append hne hsign]
            simp only [digits_append_more hdigits hmore]
    · rename_i hmark
      cases h
      rw [if_neg hmark]
      rfl

theorem unsignedNumeral?_append_more {negative : Bool} {numeral : Numeral}
    (h : unsignedNumeral? negative text = some (numeral, rest)) (hmore : Ends more) :
    unsignedNumeral? negative (text ++ more) = some (numeral, rest ++ more) := by
  cases hdigits : digits text with
  | mk whole behind =>
    rw [unsignedNumeral?, hdigits] at h
    rw [unsignedNumeral?, digits_append_more hdigits hmore]
    split at h
    · cases h
    · cases h
    · rename_i hnil hzero heq
      cases heq
      obtain ⟨⟨fraction, behind⟩, hfraction, h⟩ := Option.bind_eq_some_iff.1 h
      obtain ⟨⟨exponent, behind⟩, hexponent, h⟩ := Option.bind_eq_some_iff.1 h
      cases h
      split
      · rename_i heq
        exact absurd (Prod.mk.inj heq).1 hnil
      · rename_i heq
        exact absurd (Prod.mk.inj heq).1 (hzero _ _)
      · rename_i heq
        cases heq
        simp only [fraction?_append_more hfraction hmore, Option.bind_eq_bind, Option.bind_some,
          exponent?_append_more hexponent hmore]
        rfl

theorem exists_digit_of_unsignedNumeral? {negative : Bool} {numeral : Numeral}
    (h : unsignedNumeral? negative text = some (numeral, rest)) :
    ∃ c cs, text = c :: cs ∧ Text.isDigit c = true := by
  cases text with
  | nil => cases h
  | cons c cs =>
    refine ⟨c, cs, rfl, ?_⟩
    rw [← Bool.not_eq_false]
    intro hc
    have hnone : digits (c :: cs) = ([], c :: cs) := by
      rw [digits, Text.leadingDigits, List.takeWhile_cons_of_neg (by simp [hc]),
        List.dropWhile_cons_of_neg (by simp [hc])]
      rfl
    rw [unsignedNumeral?, hnone] at h
    cases h

/-- A numeral begins with its sign or with a digit, and is read on behind its text. -/
theorem numeral?_append_more {numeral : Numeral} (h : numeral? text = some (numeral, rest))
    (hmore : Ends more) :
    (∃ c cs, text = c :: cs ∧ (c = '-' ∨ Text.isDigit c = true)) ∧
      numeral? (text ++ more) = some (numeral, rest ++ more) := by
  rw [numeral?.eq_def] at h
  split at h
  · exact ⟨⟨_, _, rfl, Or.inl rfl⟩, unsignedNumeral?_append_more h hmore⟩
  · rename_i hminus
    obtain ⟨c, cs, rfl, hc⟩ := exists_digit_of_unsignedNumeral? h
    refine ⟨⟨c, cs, rfl, Or.inr hc⟩, ?_⟩
    rw [List.cons_append, numeral?]
    · exact unsignedNumeral?_append_more h hmore
    · intro _ heq
      exact hminus cs (congrArg (· :: cs) (List.cons.inj heq).1)

/-! ### Values -/

theorem Passes.length_le (h : Passes text rest) : rest.length ≤ text.length := by
  obtain ⟨front, rfl, -⟩ := h
  rw [List.length_append]
  exact Nat.le_add_left _ _

theorem length_lt_of_skipSpace {c : Char} {inner : List Char} (h : skipSpace text = c :: inner) :
    inner.length < text.length := by
  have hle := (passes_skipSpace text).length_le
  rwa [h] at hle

theorem skipSpace_ne_nil_of_value? {fuel : Nat} {result : Raw × List Char}
    (h : value? fuel text = some result) : skipSpace text ≠ [] := by
  intro hnil
  cases fuel with
  | zero => cases h
  | succ fuel =>
    rw [value?, hnil] at h
    cases h

theorem skipSpace_ne_nil_of_items? {fuel : Nat} {result : List Raw × List Char}
    (h : items? fuel text = some result) : skipSpace text ≠ [] := by
  cases fuel with
  | zero => cases h
  | succ fuel =>
    rw [items?] at h
    obtain ⟨_, hvalue, -⟩ := Option.bind_eq_some_iff.1 h
    exact skipSpace_ne_nil_of_value? hvalue

theorem skipSpace_ne_nil_of_members? {fuel : Nat} {result : List (List Piece × Raw) × List Char}
    (h : members? fuel text = some result) : skipSpace text ≠ [] := by
  intro hnil
  cases fuel with
  | zero => cases h
  | succ fuel =>
    rw [members?, hnil] at h
    cases h

/-- A text that does not open with a mark still does not with more behind it. -/
theorem skipSpace_append_ne {c : Char} (hne : skipSpace text ≠ [])
    (h : ∀ behind, skipSpace text ≠ c :: behind) (more : List Char) :
    ∀ behind, skipSpace (text ++ more) ≠ c :: behind := by
  intro behind heq
  obtain ⟨d, inner, hskip⟩ := List.exists_cons_of_ne_nil hne
  rw [skipSpace_append_of_cons hskip] at heq
  exact h inner (hskip.trans (congrArg (· :: inner) (List.cons.inj heq).1))

/-- What the readers take with some fuel they take with any that pays twice for each character,
    and with more behind the rest. -/
structure GoesOn (fuel : Nat) : Prop where
  value : ∀ {text rest raw}, value? fuel text = some (raw, rest) → ∀ {more}, Ends more →
    ∀ fuel', 0 < fuel' → 2 * text.length ≤ fuel' + 2 * rest.length →
      value? fuel' (text ++ more) = some (raw, rest ++ more)
  items : ∀ {text rest items}, items? fuel text = some (items, rest) → ∀ {more}, Ends more →
    ∀ fuel', 2 * text.length ≤ fuel' + 2 * rest.length →
      items? fuel' (text ++ more) = some (items, rest ++ more)
  members : ∀ {text rest members}, members? fuel text = some (members, rest) → ∀ {more},
    Ends more → ∀ fuel', 2 * text.length ≤ fuel' + 2 * rest.length →
      members? fuel' (text ++ more) = some (members, rest ++ more)

theorem value?_goesOn {fuel : Nat} (ih : GoesOn fuel) {raw : Raw}
    (h : value? (fuel + 1) text = some (raw, rest)) (hmore : Ends more) (fuel' : Nat)
    (hpos : 0 < fuel') (hfuel : 2 * text.length ≤ fuel' + 2 * rest.length) :
    value? fuel' (text ++ more) = some (raw, rest ++ more) := by
  obtain ⟨fuel', rfl⟩ := Nat.exists_eq_add_one.2 hpos
  rw [value?] at h
  split at h
  · rename_i hword
    cases h
    rw [value?, skipSpace_append_of_cons hword]
    rfl
  · rename_i hword
    cases h
    rw [value?, skipSpace_append_of_cons hword]
    rfl
  · rename_i hword
    cases h
    rw [value?, skipSpace_append_of_cons hword]
    rfl
  · rename_i hquote
    obtain ⟨⟨pieces, behind⟩, hbody, h⟩ := Option.bind_eq_some_iff.1 h
    cases h
    rw [value?, skipSpace_append_of_cons hquote]
    simp only [stringBody_append hbody, Option.bind_eq_bind, Option.bind_some]
    rfl
  · rename_i inner hbracket
    have hinner := length_lt_of_skipSpace hbracket
    rw [value?, skipSpace_append_of_cons hbracket]
    split at h
    · rename_i hempty
      cases h
      simp only [skipSpace_append_of_cons hempty]
    · rename_i hopen
      obtain ⟨⟨items, behind⟩, hitems, h⟩ := Option.bind_eq_some_iff.1 h
      cases h
      have hrest := ih.items hitems hmore fuel' (by omega)
      -- no closing bracket comes first, so the reader goes on to the items
      have hopen := skipSpace_append_ne (skipSpace_ne_nil_of_items? hitems) hopen more
      simp only [hrest]
      rfl
  · rename_i inner hbrace
    have hinner := length_lt_of_skipSpace hbrace
    rw [value?, skipSpace_append_of_cons hbrace]
    split at h
    · rename_i hempty
      cases h
      simp only [skipSpace_append_of_cons hempty]
    · rename_i hopen
      obtain ⟨⟨members, behind⟩, hmembers, h⟩ := Option.bind_eq_some_iff.1 h
      cases h
      have hrest := ih.members hmembers hmore fuel' (by omega)
      have hopen := skipSpace_append_ne (skipSpace_ne_nil_of_members? hmembers) hopen more
      simp only [hrest]
      rfl
  · obtain ⟨⟨numeral, behind⟩, hnumeral, h⟩ := Option.bind_eq_some_iff.1 h
    cases h
    obtain ⟨⟨c, cs, hskip, hc⟩, hread⟩ := numeral?_append_more hnumeral hmore
    -- blanks in front are not seen, and a numeral is no other value
    have hblanks : ∀ c ∈ text.takeWhile isSpace, isSpace c = true :=
      List.all_eq_true.1 List.all_takeWhile
    have htext : text ++ more = text.takeWhile isSpace ++ (c :: (cs ++ more)) := by
      rw [← List.cons_append, ← hskip, skipSpace, ← List.append_assoc,
        List.takeWhile_append_dropWhile]
    rw [hskip] at hread
    rw [htext, value?_blanks hblanks]
    exact value?_numeral hc hread fuel'

theorem items?_goesOn {fuel : Nat} (ih : GoesOn fuel) {items : List Raw}
    (h : items? (fuel + 1) text = some (items, rest)) (hmore : Ends more) (fuel' : Nat)
    (hfuel : 2 * text.length ≤ fuel' + 2 * rest.length) :
    items? fuel' (text ++ more) = some (items, rest ++ more) := by
  have hlength := ((takesNested _).items h).length_le
  rw [List.length_cons] at hlength
  obtain ⟨fuel', rfl⟩ := Nat.exists_eq_add_one.2 (show 0 < fuel' by omega)
  rw [items?] at h
  obtain ⟨⟨item, behind⟩, hitem, h⟩ := Option.bind_eq_some_iff.1 h
  have hbehind := ((takesNested _).value hitem).passes.length_le
  simp only at h
  split at h
  · rename_i hclose
    cases h
    have hafter := length_lt_of_skipSpace hclose
    have hvalue := ih.value hitem hmore fuel' (by omega) (by omega)
    simp only [items?, hvalue, Option.bind_eq_bind, Option.bind_some,
      skipSpace_append_of_cons hclose]
    rfl
  · rename_i after hcomma
    obtain ⟨⟨others, behind⟩, hothers, h⟩ := Option.bind_eq_some_iff.1 h
    simp only at h
    cases h
    have hafter := length_lt_of_skipSpace hcomma
    have hend := ((takesNested _).items hothers).length_le
    rw [List.length_cons] at hend
    have hvalue := ih.value hitem hmore fuel' (by omega) (by omega)
    have hrest := ih.items hothers hmore fuel' (by omega)
    simp only [items?, hvalue, Option.bind_eq_bind, Option.bind_some,
      skipSpace_append_of_cons hcomma, hrest]
    rfl
  · cases h

theorem members?_goesOn {fuel : Nat} (ih : GoesOn fuel) {members : List (List Piece × Raw)}
    (h : members? (fuel + 1) text = some (members, rest)) (hmore : Ends more) (fuel' : Nat)
    (hfuel : 2 * text.length ≤ fuel' + 2 * rest.length) :
    members? fuel' (text ++ more) = some (members, rest ++ more) := by
  have hlength := ((takesNested _).members h).length_le
  rw [List.length_cons] at hlength
  obtain ⟨fuel', rfl⟩ := Nat.exists_eq_add_one.2 (show 0 < fuel' by omega)
  rw [members?] at h
  split at h
  · rename_i inner hquote
    obtain ⟨⟨key, named⟩, hkey, h⟩ := Option.bind_eq_some_iff.1 h
    have hinner := length_lt_of_skipSpace hquote
    have hnamed : named.length ≤ inner.length := by
      obtain ⟨body, rfl, -⟩ := exists_string_of_stringBody hkey
      rw [List.length_append]
      exact Nat.le_add_left _ _
    simp only at h
    split at h
    · rename_i under hcolon
      obtain ⟨⟨value, behind⟩, hvalue, h⟩ := Option.bind_eq_some_iff.1 h
      have hunder := length_lt_of_skipSpace hcolon
      have hbehind := ((takesNested _).value hvalue).passes.length_le
      simp only at h
      split at h
      · rename_i hclose
        cases h
        have hafter := length_lt_of_skipSpace hclose
        have hread := ih.value hvalue hmore fuel' (by omega) (by omega)
        simp only [members?, skipSpace_append_of_cons hquote, stringBody_append hkey,
          Option.bind_eq_bind, Option.bind_some, skipSpace_append_of_cons hcolon, hread,
          skipSpace_append_of_cons hclose]
        rfl
      · rename_i after hcomma
        obtain ⟨⟨others, behind⟩, hothers, h⟩ := Option.bind_eq_some_iff.1 h
        simp only at h
        cases h
        have hafter := length_lt_of_skipSpace hcomma
        have hend := ((takesNested _).members hothers).length_le
        rw [List.length_cons] at hend
        have hread := ih.value hvalue hmore fuel' (by omega) (by omega)
        have hrest := ih.members hothers hmore fuel' (by omega)
        simp only [members?, skipSpace_append_of_cons hquote, stringBody_append hkey,
          Option.bind_eq_bind, Option.bind_some, skipSpace_append_of_cons hcolon, hread,
          skipSpace_append_of_cons hcomma, hrest]
        rfl
      · cases h
    · cases h
  · cases h

theorem goesOn (fuel : Nat) : GoesOn fuel := by
  induction fuel with
  | zero =>
    constructor
    · intro text rest raw h
      cases h
    · intro text rest items h
      cases h
    · intro text rest members h
      cases h
  | succ fuel ih =>
    constructor
    · exact fun h => value?_goesOn ih h
    · exact fun h => items?_goesOn ih h
    · exact fun h => members?_goesOn ih h

/-! ### Whole texts -/

/-- A text that is one value within the limits and ends with it. Blanks may stand in front. -/
structure IsValue (depth : Nat) (text : List Char) : Prop where
  within : ((parse? text).bind (toJson? depth)).isSome = true
  trimmed : ∀ c ∈ text.getLast?, isSpace c = false

/-- A value by itself reads as a part of a document. -/
theorem IsValue.exists_reads {depth : Nat} (h : IsValue depth text) :
    ∃ value, Reads depth text value := by
  obtain ⟨value, hvalue⟩ := Option.isSome_iff_exists.1 h.within
  obtain ⟨raw, hraw, hvalue⟩ := Option.bind_eq_some_iff.1 hvalue
  rw [parse?] at hraw
  split at hraw
  · rename_i rest hread
    split at hraw
    · rename_i hblank
      cases hraw
      have hend : rest = [] := by
        obtain ⟨front, rfl, -⟩ := ((takesNested _).value hread).passes
        cases hrest : rest.getLast? with
        | none => exact List.getLast?_eq_none_iff.1 hrest
        | some c =>
          have hlast : c ∈ (front ++ rest).getLast? := by
            rw [List.getLast?_append, hrest]
            rfl
          have hspace := List.all_eq_true.1 hblank c (List.mem_of_getLast? hrest)
          exact absurd hspace (Bool.eq_false_iff.1 (h.trimmed c hlast))
      subst hend
      have hne : text ≠ [] := by
        rintro rfl
        cases hread
      have hpos := List.length_pos_iff.2 hne
      refine ⟨value, raw, hvalue, fun fuel more hfuel hmore => ?_⟩
      exact (goesOn _).value hread hmore fuel (by omega) hfuel
    · cases hraw
  · cases hraw

end Raw

end SessionLog
