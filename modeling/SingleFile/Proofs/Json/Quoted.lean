import Mathlib.Data.List.Forall2
import Mathlib.Tactic.Common
import Mathlib.Tactic.IntervalCases
import SingleFile.Json.Quoted

/-! # Strings are read as written

There are three ways to write an element of a string: as itself, as a backslash and a letter, and as a
code unit in hexadecimal. However its elements are written, a string is read from behind its quotation
mark as these elements, together with what follows the closing mark, and the elements are read as the
text they stand for. Written forms use only the ways that are needed, so any text is read back.
-/

namespace SingleFile.Json

/-- The letters of escapes, with the characters they stand for. -/
def letterEscapes : List (Char × Char) :=
  [('"', '"'), ('\\', '\\'), ('/', '/'), ('b', '\x08'), ('f', '\x0c'), ('n', '\n'), ('r', '\r'),
    ('t', '\t')]

/-- A hexadecimal digit, small or capital. -/
def IsHexDigit (c : Char) (value : Nat) : Prop :=
  "0123456789abcdef".toList[value]? = some c ∨ "0123456789ABCDEF".toList[value]? = some c

/-- How an element of a string may be written. -/
inductive Piece.Spelled : Piece → List Char → Prop
  | plain {c : Char} (visible : ¬ c < ' ') (quote : c ≠ '"') (backslash : c ≠ '\\') :
      Spelled (.char c) [c]
  | letter {letter c : Char} (stands : (letter, c) ∈ letterEscapes) :
      Spelled (.char c) ['\\', letter]
  | unit {a b c d : Char} {first second third fourth : Nat} (high : IsHexDigit a first)
      (next : IsHexDigit b second) (low : IsHexDigit c third) (last : IsHexDigit d fourth) :
      Spelled (.unit (first * 4096 + second * 256 + third * 16 + fourth)) ['\\', 'u', a, b, c, d]

/-- The elements of a string stand for a text. A character may be given by its code unit, or by the two
units of a surrogate pair. -/
inductive StandsFor : List Piece → List Char → Prop
  | nil : StandsFor [] []
  | char {c : Char} {pieces : List Piece} {text : List Char} (rest : StandsFor pieces text) :
      StandsFor (.char c :: pieces) (c :: text)
  | unit {c : Char} {pieces : List Piece} {text : List Char} (rest : StandsFor pieces text) :
      StandsFor (.unit c.toNat :: pieces) (c :: text)
  | pair {c : Char} {high low : Nat} {pieces : List Piece} {text : List Char}
      (leads : 0xD800 ≤ high ∧ high < 0xDC00) (trails : 0xDC00 ≤ low ∧ low < 0xE000)
      (value : c.toNat = 0x10000 + (high - 0xD800) * 0x400 + (low - 0xDC00))
      (rest : StandsFor pieces text) : StandsFor (.unit high :: .unit low :: pieces) (c :: text)

theorem IsHexDigit.lt {c : Char} {value : Nat} (digit : IsHexDigit c value) : value < 16 := by
  rcases digit with small | capital
  · exact (List.getElem?_eq_some_iff.mp small).1
  · exact (List.getElem?_eq_some_iff.mp capital).1

theorem IsHexDigit.hexValue? {c : Char} {value : Nat} (digit : IsHexDigit c value) :
    hexValue? c = some value := by
  have small : ∀ value < 16, "0123456789abcdef".toList[value]?.bind Json.hexValue? = some value := by
    decide +kernel
  have capital : ∀ value < 16, "0123456789ABCDEF".toList[value]?.bind Json.hexValue? = some value := by
    decide +kernel
  rcases digit with given | given
  · have read := small value (List.getElem?_eq_some_iff.mp given).1
    rwa [given] at read
  · have read := capital value (List.getElem?_eq_some_iff.mp given).1
    rwa [given] at read

theorem escaped?_of_mem {letter c : Char} (stands : (letter, c) ∈ letterEscapes) :
    escaped? letter = some c := by
  have table : ∀ entry ∈ letterEscapes, escaped? entry.1 = some entry.2 := by decide
  exact table _ stands

/-- An element is read in each of the ways it may be written. -/
theorem scanQuoted_spelled {piece : Piece} {spelling : List Char} (spelled : piece.Spelled spelling)
    (rest : List Char) : scanQuoted (spelling ++ rest) =
      (scanQuoted rest).map fun read => (piece :: read.1, read.2) := by
  cases spelled with
  | @plain c visible quote backslash =>
    rw [List.singleton_append, scanQuoted]
    · rw [if_neg visible]
      cases scanQuoted rest <;> rfl
    all_goals simp [quote, backslash]
  | @letter letter c stands =>
    have escape := escaped?_of_mem stands
    rw [List.cons_append, List.singleton_append, scanQuoted]
    · rw [escape]
      cases scanQuoted rest <;> rfl
    · rintro _ _ _ _ _ rfl
      cases escape
  | unit high next low last =>
    simp only [List.cons_append, List.nil_append, scanQuoted, high.hexValue?, next.hexValue?,
      low.hexValue?, last.hexValue?, bind, Option.bind]
    cases scanQuoted rest <;> rfl

/-- A string is read from behind its quotation mark. -/
theorem scanQuoted_pieces {pieces : List Piece} {spellings : List (List Char)}
    (spelled : List.Forall₂ Piece.Spelled pieces spellings) (rest : List Char) :
    scanQuoted (spellings.flatten ++ '"' :: rest) = some (pieces, rest) := by
  induction spelled with
  | nil => rfl
  | cons first _ ih =>
    rw [List.flatten_cons, List.append_assoc, scanQuoted_spelled first, ih]
    rfl

/-- A code unit that is no surrogate. -/
theorem text?_unit {value : Nat} (lone : value < 0xD800 ∨ 0xE000 ≤ value) (pieces : List Piece) :
    text? (.unit value :: pieces) = (text? pieces).map (Char.ofNat value :: ·) := by
  have high : isHighSurrogate value = false := by simp [isHighSurrogate]; omega
  have low : isLowSurrogate value = false := by simp [isLowSurrogate]; omega
  rw [text?.eq_def]
  simp only [high, low, Bool.false_eq_true, if_false]

theorem text?_pair {high low : Nat} (leads : 0xD800 ≤ high ∧ high < 0xDC00)
    (trails : 0xDC00 ≤ low ∧ low < 0xE000) (pieces : List Piece) :
    text? (.unit high :: .unit low :: pieces) = (text? pieces).map (pairedChar high low :: ·) := by
  have high : isHighSurrogate high = true := by simpa [isHighSurrogate] using leads
  have low : isLowSurrogate low = true := by simpa [isLowSurrogate] using trails
  rw [text?.eq_def]
  simp only [high, low, if_true]

theorem toNat_lone (c : Char) : c.toNat < 0xD800 ∨ 0xE000 ≤ c.toNat := by
  rcases c.valid with small | ⟨large, _⟩
  · exact .inl small
  · exact .inr large

theorem toNat_ofNat {value : Nat} (valid : value.isValidChar) : (Char.ofNat value).toNat = value := by
  rw [Char.ofNat, dif_pos valid]
  rfl

theorem text?_of_standsFor {pieces : List Piece} {text : List Char} (stands : StandsFor pieces text) :
    text? pieces = some text := by
  induction stands with
  | nil => rfl
  | char _ ih => rw [text?, ih]; rfl
  | @unit c _ _ _ ih => rw [text?_unit (toNat_lone c), ih, Char.ofNat_toNat]; rfl
  | @pair c high low _ _ leads trails value _ ih =>
    rw [text?_pair leads trails, ih, pairedChar, ← value, Char.ofNat_toNat]
    rfl

/-- An element is a character or a code unit of 16 bits. -/
def Piece.IsSmall : Piece → Prop
  | .char _ => True
  | .unit value => value < 0x10000

theorem Piece.Spelled.isSmall {piece : Piece} {spelling : List Char} (spelled : piece.Spelled spelling) :
    piece.IsSmall := by
  cases spelled with
  | plain => trivial
  | letter => trivial
  | unit high next low last =>
    have := high.lt
    have := next.lt
    have := low.lt
    have := last.lt
    change _ < 0x10000
    omega

theorem isSmall_of_spelled {pieces : List Piece} {spellings : List (List Char)}
    (spelled : List.Forall₂ Piece.Spelled pieces spellings) : ∀ piece ∈ pieces, piece.IsSmall := by
  induction spelled with
  | nil => exact nofun
  | cons first _ ih => exact List.forall_mem_cons.mpr ⟨first.isSmall, ih⟩

/-- The text that elements are read as is the one they stand for. -/
theorem standsFor_of_text? {pieces : List Piece} {text : List Char}
    (small : ∀ piece ∈ pieces, piece.IsSmall) (read : text? pieces = some text) :
    StandsFor pieces text := by
  induction pieces using text?.induct generalizing text with
  | case1 =>
    cases read
    exact .nil
  | case2 c rest ih =>
    obtain ⟨others, later, rfl⟩ := Option.map_eq_some_iff.mp read
    exact .char (ih (List.forall_mem_cons.mp small).2 later)
  | case3 high first low rest second ih =>
    have leads : 0xD800 ≤ high ∧ high < 0xDC00 := by simpa [isHighSurrogate] using first
    have trails : 0xDC00 ≤ low ∧ low < 0xE000 := by simpa [isLowSurrogate] using second
    rw [text?_pair leads trails] at read
    obtain ⟨others, later, rfl⟩ := Option.map_eq_some_iff.mp read
    have rests := (List.forall_mem_cons.mp (List.forall_mem_cons.mp small).2).2
    exact .pair leads trails (toNat_ofNat (.inr (by omega))) (ih rests later)
  | case4 high first low rest second => simp [text?, first, second] at read
  | case5 high rest first lone =>
    rw [text?] at read
    · rw [if_pos first] at read
      cases read
    · exact lone
  | case6 value rest first second =>
    rw [text?.eq_def] at read
    simp [first, second] at read
  | case7 value rest first second ih =>
    obtain ⟨bound, rests⟩ := List.forall_mem_cons.mp small
    have lone : value < 0xD800 ∨ 0xE000 ≤ value := by
      simp only [isHighSurrogate, isLowSurrogate, Bool.and_eq_true, decide_eq_true_eq] at first second
      omega
    rw [text?_unit lone] at read
    obtain ⟨others, later, rfl⟩ := Option.map_eq_some_iff.mp read
    have valid : value.isValidChar := by
      change value < 0x10000 at bound
      exact lone.imp_right fun large => ⟨by omega, by omega⟩
    rw [← toNat_ofNat valid, Char.ofNat_toNat]
    exact .unit (ih rests later)

/-- The characters that are written with a backslash and one more character. -/
def shortEscapes : List Char :=
  ['"', '\\', '\x08', '\x0c', '\n', '\r', '\t']

/-- What the written form of a character is read as. -/
def Piece.ofChar (c : Char) : Piece :=
  if c < ' ' ∧ c ∉ shortEscapes then .unit c.toNat else .char c

theorem escape_of_not_short {c : Char} (long : c ∉ shortEscapes) :
    escape c = if c < ' ' then
      ['\\', 'u', '0', '0', Nat.digitChar (c.toNat / 16), Nat.digitChar (c.toNat % 16)] else [c] := by
  simp only [shortEscapes, List.mem_cons, List.not_mem_nil, or_false, not_or] at long
  rw [escape] <;> simp [long]

theorem isHexDigit_digitChar : ∀ value < 16, IsHexDigit (Nat.digitChar value) value := by
  intro value bound
  interval_cases value <;> exact .inl rfl

/-- The written form of a character is one way to write its element. -/
theorem Piece.spelled_escape (c : Char) : (Piece.ofChar c).Spelled (escape c) := by
  by_cases short : c ∈ shortEscapes
  · have piece : Piece.ofChar c = .char c := if_neg fun both => both.2 short
    rw [piece]
    simp only [shortEscapes, List.mem_cons, List.not_mem_nil, or_false] at short
    rcases short with rfl | rfl | rfl | rfl | rfl | rfl | rfl
    all_goals exact .letter (by decide)
  · rw [escape_of_not_short short]
    by_cases control : c < ' '
    · have small : c.toNat < 32 := control
      have piece : Piece.ofChar c = .unit c.toNat := if_pos ⟨control, short⟩
      have value : 0 * 4096 + 0 * 256 + c.toNat / 16 * 16 + c.toNat % 16 = c.toNat := by omega
      have zero : IsHexDigit '0' 0 := .inl rfl
      have spelled := Spelled.unit zero zero (isHexDigit_digitChar (c.toNat / 16) (by omega))
        (isHexDigit_digitChar (c.toNat % 16) (by omega))
      rw [value] at spelled
      rwa [if_pos control, piece]
    · have piece : Piece.ofChar c = .char c := if_neg fun both => control both.1
      simp only [shortEscapes, List.mem_cons, List.not_mem_nil, or_false, not_or] at short
      rw [if_neg control, piece]
      exact .plain control short.1 short.2.1

theorem Piece.spelled_map_escape (text : List Char) :
    List.Forall₂ Piece.Spelled (text.map Piece.ofChar) (text.map escape) := by
  rw [List.forall₂_map_left_iff, List.forall₂_map_right_iff, List.forall₂_same]
  exact fun c _ => Piece.spelled_escape c

/-- The elements of a written text stand for the text. -/
theorem standsFor_map_ofChar (text : List Char) : StandsFor (text.map Piece.ofChar) text := by
  induction text with
  | nil => exact .nil
  | cons c rest ih =>
    rw [List.map_cons, Piece.ofChar]
    split
    · exact .unit ih
    · exact .char ih

end SingleFile.Json
