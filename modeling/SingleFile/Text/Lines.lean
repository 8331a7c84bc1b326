/-! # Pieces and lines of a text

`pieces` cuts at every separator and keeps empty pieces, so a text with `n` separators has `n + 1`
pieces. `joinWith` puts a separator back between them and undoes the cut.

Lines end at a line feed; one carriage return before it belongs to the break. The text after the
last break is a line too, so every text has one more line than line feeds.
-/

namespace SingleFile.Text

/-- Puts a character in front of the first piece. -/
def extendFirst (c : Char) : List (List Char) → List (List Char)
  | [] => [[c]]
  | piece :: rest => (c :: piece) :: rest

/-- The pieces of a text between its separators; an empty text is one empty piece. -/
def pieces (isSeparator : Char → Bool) : List Char → List (List Char)
  | [] => [[]]
  | c :: rest =>
    if isSeparator c then [] :: pieces isSeparator rest
    else extendFirst c (pieces isSeparator rest)

/-- Joins pieces with one separator between neighbours. -/
def joinWith (separator : Char) : List (List Char) → List Char
  | [] => []
  | [piece] => piece
  | piece :: rest => piece ++ separator :: joinWith separator rest

/-- A list without its last element if that element is `c`. -/
def withoutFinal (c : Char) (text : List Char) : List Char :=
  if text.getLast? = some c then text.dropLast else text

theorem pieces_ne_nil (isSeparator : Char → Bool) (text : List Char) :
    pieces isSeparator text ≠ [] := by
  induction text with
  | nil => simp [pieces]
  | cons c rest ih =>
    rw [pieces]
    split
    · simp
    · cases cut : pieces isSeparator rest <;> simp [extendFirst]

theorem length_pieces (isSeparator : Char → Bool) (text : List Char) :
    (pieces isSeparator text).length = text.countP isSeparator + 1 := by
  induction text with
  | nil => rfl
  | cons c rest ih =>
    rw [pieces]
    split <;> rename_i separates
    · simp [separates, ih]
    · cases cut : pieces isSeparator rest with
      | nil => exact absurd cut (pieces_ne_nil isSeparator rest)
      | cons first others => simp_all [extendFirst]

theorem joinWith_extendFirst (separator c : Char) (first : List Char) (rest : List (List Char)) :
    joinWith separator (extendFirst c (first :: rest)) = c :: joinWith separator (first :: rest) := by
  cases rest <;> rfl

theorem joinWith_pieces (separator : Char) (text : List Char) :
    joinWith separator (pieces (· == separator) text) = text := by
  induction text with
  | nil => rfl
  | cons c rest ih =>
    rw [pieces]
    cases cut : pieces (· == separator) rest with
    | nil => exact absurd cut (pieces_ne_nil _ rest)
    | cons first others =>
      rw [cut] at ih
      split <;> rename_i separates
      · rw [eq_of_beq separates, joinWith, ih]
        · simp
        · simp
      · rw [joinWith_extendFirst, ih]

/-- The lines of a text, without their breaks. -/
def lines (text : String) : List String :=
  (pieces (· == '\n') text.toList).map fun line => String.ofList (withoutFinal '\r' line)

/-- The number of lines as a word. It is exact for texts with fewer than `2 ^ 32` lines; for longer
ones, at which the program may stop, it is modulo `2 ^ 32`, and results on line numbers leave them
out. -/
def lineCount (text : String) : UInt32 :=
  UInt32.ofNat (text.toList.count '\n') + 1

/-- A text less one break at its end, a line feed with or without a carriage return. -/
def withoutFinalBreak (text : String) : String :=
  let chars := text.toList
  if chars.getLast? = some '\n' then String.ofList (withoutFinal '\r' chars.dropLast) else text

theorem length_lines (text : String) : (lines text).length = text.toList.count '\n' + 1 := by
  simp [lines, length_pieces, List.count]

theorem lineCount_eq_length (text : String) :
    lineCount text = UInt32.ofNat (lines text).length := by
  rw [length_lines, lineCount, UInt32.ofNat_add]
  rfl

end SingleFile.Text
