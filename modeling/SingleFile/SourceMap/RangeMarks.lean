import SingleFile.SourceMap.Basic
import SingleFile.SourceMap.Error
import SingleFile.Text.Base64

/-! # Range marks

A text beside the mappings tells which tokens stand for a whole range. Each symbol holds six marks,
lowest bit first, for the segments of one line in turn; lines are separated as in the mappings.
-/

namespace SingleFile.RangeMarks

/-- The character of the first byte of a character. -/
def firstByte (c : Char) : Char :=
  Char.ofNat (((String.utf8EncodeChar c).headD 0).toNat)

def bits (value : Nat) : List Bool :=
  (List.range 6).map value.testBit

/-- The marks of one line. -/
def read : List Char → Except DecodeError (List Bool)
  | [] => .ok []
  | c :: rest =>
    match Text.Base64.value? c with
    | some value => (read rest).map (bits value ++ ·)
    | none => .error (.badRangeSymbol (firstByte c))

/-- The symbols that mark the given places of a line, up to the last one marked. -/
def writeLine (places : List Nat) : List Char :=
  match places.max? with
  | none => []
  | some last => (List.range (last / 6 + 1)).map fun group =>
    let marked := (List.range 6).filter fun bit => 6 * group + bit ∈ places
    Text.Base64.symbol (marked.foldl (fun value bit => value + 1 <<< bit) 0)

/-- Writes the marks of tokens from the given line and index on. `start` is the index of the line's
first token, `places` are the marks gathered for the line. A mark on the first token of a line is
written before the breaks that lead to it, so it falls on the line before. -/
def writeFrom (line : UInt32) (start index : Nat) (places : List Nat) : List Token → List Char
  | [] => writeLine places
  | token :: rest =>
    let places := if token.isRange then places ++ [index - start] else places
    let steps := (token.generated.line - line).toNat
    if steps = 0 then writeFrom line start (index + 1) places rest
    else
      writeLine places ++ List.replicate steps ';' ++
        writeFrom token.generated.line index (index + 1) [] rest

/-- The marks of a map's tokens, none if no token is a range. -/
def write? (tokens : List Token) : Option (List Char) :=
  if tokens.any (·.isRange) then some (writeFrom 0 0 0 [] tokens) else none

end SingleFile.RangeMarks
