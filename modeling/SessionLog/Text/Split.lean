/-
  SessionLog/Text/Split.lean
  ==========================
  **A text cut at a character.**

  The pieces of a text are what stands between the occurrences of a separator, so
  there is one piece more than there are separators. Lines are the pieces between
  line feeds: a carriage return stays at the end of its line, and a text that ends
  in a line feed has an empty last line. Who reads a text line by line sees neither.
-/
namespace SessionLog.Text

/-- Puts a character in front of the first of some pieces; a separator opens a new
    piece there instead. -/
def consPiece (separator c : Char) (pieces : List (List Char)) : List (List Char) :=
  if c = separator then [] :: pieces
  else
    match pieces with
    | [] => [[c]]
    | piece :: rest => (c :: piece) :: rest

def split (separator : Char) (text : List Char) : List (List Char) :=
  text.foldr (consPiece separator) [[]]

@[simp] theorem split_nil (separator : Char) : split separator [] = [[]] := rfl

theorem split_cons (separator c : Char) (text : List Char) :
    split separator (c :: text) = consPiece separator c (split separator text) := rfl

theorem split_ne_nil (separator : Char) (text : List Char) : split separator text ≠ [] := by
  cases text with
  | nil => simp [split_nil]
  | cons c text =>
    rw [split_cons, consPiece.eq_def]
    split
    · simp
    · split <;> simp

theorem consPiece_append (separator c : Char) {front : List (List Char)} (h : front ≠ [])
    (back : List (List Char)) :
    consPiece separator c (front ++ back) = consPiece separator c front ++ back := by
  cases front with
  | nil => exact absurd rfl h
  | cons piece rest => by_cases hc : c = separator <;> simp [consPiece, hc]

/-- The pieces around a separator are those in front of it and those behind it. -/
theorem split_append (separator : Char) (front back : List Char) :
    split separator (front ++ separator :: back) =
      split separator front ++ split separator back := by
  induction front with
  | nil => simp [split_cons, split_nil, consPiece]
  | cons c front ih =>
    rw [List.cons_append, split_cons, split_cons, ih,
      consPiece_append separator c (split_ne_nil separator front)]

theorem split_of_not_mem {separator : Char} {text : List Char} (h : separator ∉ text) :
    split separator text = [text] := by
  induction text with
  | nil => rfl
  | cons c text ih =>
    rw [List.mem_cons, not_or] at h
    rw [split_cons, ih h.2, consPiece, if_neg (Ne.symm h.1)]

/-! ### Lines -/

def lines (text : List Char) : List (List Char) := split '\n' text

/-- A line without the carriage return at its end. -/
def dropReturn (line : List Char) : List Char :=
  if line.getLast? = some '\r' then line.dropLast else line

/-- Takes the ends off some lines. All but the last one end in a line feed, which has a
    carriage return with it or not; nothing behind the last line feed is no line. -/
def dropEnds : List (List Char) → List (List Char)
  | [] => []
  | [last] => if last = [] then [] else [last]
  | line :: next :: rest => dropReturn line :: dropEnds (next :: rest)

/-- The lines of a text as they are read one by one. -/
def readLines (text : List Char) : List (List Char) := dropEnds (lines text)

end SessionLog.Text
