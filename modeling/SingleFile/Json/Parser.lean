import SingleFile.Json.Basic
import SingleFile.Json.Quoted

/-! # Reading JSON

A strict reader of whole texts: blanks are the space, the tab and the two line characters, numerals
have no leading zeros, and nothing follows the value. Nesting is not limited here.
-/

namespace SingleFile.Json

def isBlank (c : Char) : Bool :=
  c == ' ' || c == '\t' || c == '\n' || c == '\r'

def skipBlanks (text : List Char) : List Char :=
  text.dropWhile isBlank

/-- The digits at the start of a text, and what follows them. -/
def scanDigits (text : List Char) : List Nat × List Char :=
  ((text.takeWhile Char.isDigit).map (·.toNat - 48), text.dropWhile Char.isDigit)

def scanFraction? (text : List Char) : Option (List Nat × List Char) :=
  match text with
  | '.' :: rest =>
    match scanDigits rest with
    | ([], _) => none
    | (digits, rest) => some (digits, rest)
  | _ => some ([], text)

def scanSign (text : List Char) : Bool × List Char :=
  match text with
  | '-' :: rest => (true, rest)
  | '+' :: rest => (false, rest)
  | _ => (false, text)

def scanExponent? (text : List Char) : Option (Option Exponent × List Char) :=
  match text with
  | c :: rest =>
    if c = 'e' ∨ c = 'E' then
      let (negative, rest) := scanSign rest
      match scanDigits rest with
      | ([], _) => none
      | (digits, rest) => some (some ⟨negative, digits⟩, rest)
    else some (none, text)
  | [] => some (none, text)

/-- Reads a numeral behind its sign. -/
def scanUnsigned? (negative : Bool) (text : List Char) : Option (Numeral × List Char) :=
  match scanDigits text with
  | ([], _) => none
  | (0 :: _ :: _, _) => none
  | (whole, rest) => do
    let (fraction, rest) ← scanFraction? rest
    let (exponent, rest) ← scanExponent? rest
    some (⟨negative, whole, fraction, exponent⟩, rest)

def scanNumeral? (text : List Char) : Option (Numeral × List Char) :=
  match text with
  | '-' :: rest => scanUnsigned? true rest
  | _ => scanUnsigned? false text

/-- Reads a string whose opening quotation mark is already behind. -/
def scanString? (text : List Char) : Option (Option String × List Char) :=
  (scanQuoted text).map fun (pieces, rest) => ((text? pieces).map String.ofList, rest)

mutual

/-- Reads a value, and gives what follows it. The first argument bounds the number of steps. -/
def scanValue? : Nat → List Char → Option (Json × List Char)
  | 0, _ => none
  | steps + 1, text =>
    match skipBlanks text with
    | '[' :: rest =>
      match skipBlanks rest with
      | ']' :: rest => some (.array [], rest)
      | rest => (scanItems? steps rest).map fun (items, rest) => (.array items, rest)
    | '{' :: rest =>
      match skipBlanks rest with
      | '}' :: rest => some (.object [], rest)
      | rest => (scanMembers? steps rest).map fun (members, rest) => (.object members, rest)
    | '"' :: rest => (scanString? rest).map fun (text, rest) => (.string text, rest)
    | 'n' :: 'u' :: 'l' :: 'l' :: rest => some (.null, rest)
    | 't' :: 'r' :: 'u' :: 'e' :: rest => some (.bool true, rest)
    | 'f' :: 'a' :: 'l' :: 's' :: 'e' :: rest => some (.bool false, rest)
    | text => (scanNumeral? text).map fun (numeral, rest) => (.number numeral, rest)

/-- Reads the items of an array that has some, up to the closing bracket. -/
def scanItems? : Nat → List Char → Option (List Json × List Char)
  | 0, _ => none
  | steps + 1, text => do
    let (item, rest) ← scanValue? steps text
    match skipBlanks rest with
    | ',' :: rest =>
      let (items, rest) ← scanItems? steps rest
      some (item :: items, rest)
    | ']' :: rest => some ([item], rest)
    | _ => none

/-- Reads the members of an object that has some, up to the closing brace. -/
def scanMembers? : Nat → List Char → Option (List (Option String × Json) × List Char)
  | 0, _ => none
  | steps + 1, text => do
    let (name, rest) ← match skipBlanks text with
      | '"' :: rest => scanString? rest
      | _ => none
    let (value, rest) ← match skipBlanks rest with
      | ':' :: rest => scanValue? steps rest
      | _ => none
    match skipBlanks rest with
    | ',' :: rest =>
      let (members, rest) ← scanMembers? steps rest
      some ((name, value) :: members, rest)
    | '}' :: rest => some ([(name, value)], rest)
    | _ => none

end

/-- The value that a text holds. Two steps for each character are more than any text needs. -/
def parse? (text : List Char) : Option Json := do
  let (value, rest) ← scanValue? (2 * text.length + 2) text
  if skipBlanks rest = [] then some value else none

end SingleFile.Json
