import SingleFile.SourceMap.RangeMarks
import SingleFile.SourceMap.Vlq
import SingleFile.Text.Lines

/-! # The mappings text

Tokens are written as segments, separated by `;` between lines and by `,` within one. A segment
holds differences to the values of the segments before it: the generated column starts at zero on
every line, while source, original point and name run on.
-/

namespace SingleFile.Mappings

/-- The values that the next segment's differences refer to. -/
structure Cursor where
  column : UInt32
  source : Nat
  original : Point
  name : Nat

def Cursor.start : Cursor := ⟨0, 0, ⟨0, 0⟩, 0⟩

/-- A value moved by a difference, modulo `2 ^ 32`. -/
def shift (value : Nat) (difference : Int) : UInt32 :=
  UInt32.ofInt (value + difference)

def Point.shift (point : Point) (lines columns : Int) : Point :=
  ⟨Mappings.shift point.line.toNat lines, Mappings.shift point.column.toNat columns⟩

/-- The sizes of the tables that segments refer to. -/
structure Limits where
  sources : Nat
  names : Nat

def Cursor.moveColumn (cursor : Cursor) (difference : Int) : Cursor :=
  { cursor with column := shift cursor.column.toNat difference }

/-- Moves to the source and the original point of a segment. -/
def Cursor.moveOrigin (limits : Limits) (cursor : Cursor) (source lines columns : Int) :
    Except DecodeError Cursor :=
  let source := (shift cursor.source source).toNat
  if source < limits.sources then
    .ok { cursor with source, original := Point.shift cursor.original lines columns }
  else .error (.badSource source)

def Cursor.moveName (limits : Limits) (cursor : Cursor) (difference : Int) :
    Except DecodeError Cursor :=
  let name := (shift cursor.name difference).toNat
  if name < limits.names then .ok { cursor with name } else .error (.badName name)

/-- The token at a cursor. -/
def Cursor.token (cursor : Cursor) (line : UInt32) (origin : Option Origin) (isRange : Bool) :
    Token :=
  ⟨⟨line, cursor.column⟩, cursor.original, origin, isRange⟩

/-- Reads one segment: one number without an origin, four with one, five with a name too. -/
def readSegment (limits : Limits) (line : UInt32) (isRange : Bool) (cursor : Cursor)
    (segment : List Char) : Except DecodeError (Token × Cursor) := do
  match ← Vlq.read segment with
  | [column] =>
    let cursor := cursor.moveColumn column
    return (cursor.token line none isRange, cursor)
  | [column, source, lines, columns] =>
    let cursor ← (cursor.moveColumn column).moveOrigin limits source lines columns
    return (cursor.token line (some ⟨cursor.source, none⟩) isRange, cursor)
  | [column, source, lines, columns, name] =>
    let cursor ← (cursor.moveColumn column).moveOrigin limits source lines columns
    let cursor ← cursor.moveName limits name
    return (cursor.token line (some ⟨cursor.source, some cursor.name⟩) isRange, cursor)
  | numbers => throw (.badSegmentSize numbers.length)

/-- Reads the segments of a line. Empty ones are skipped, but each has its range mark. -/
def readLine (limits : Limits) (line : UInt32) (cursor : Cursor) (marks : List Bool) :
    List (List Char) → Except DecodeError (List Token × Cursor)
  | [] => .ok ([], cursor)
  | [] :: rest => readLine limits line cursor marks.tail rest
  | segment :: rest => do
    let (token, cursor) ← readSegment limits line (marks.headD false) cursor segment
    let (tokens, cursor) ← readLine limits line cursor marks.tail rest
    return (token :: tokens, cursor)

/-- Reads lines, each with its range marks where there are any. The marks of an empty line are not
looked at. -/
def readLines (limits : Limits) (line : UInt32) (cursor : Cursor) (marks : List (List Char)) :
    List (List Char) → Except DecodeError (List Token)
  | [] => .ok []
  | [] :: rest => readLines limits (line + 1) cursor marks.tail rest
  | text :: rest => do
    let places ← RangeMarks.read (marks.headD [])
    let (tokens, cursor) ←
      readLine limits line { cursor with column := 0 } places (Text.pieces (· == ',') text)
    return tokens ++ (← readLines limits (line + 1) cursor marks.tail rest)

/-- The tokens of a mappings text. -/
def read (limits : Limits) (marks mappings : List Char) : Except DecodeError (List Token) :=
  readLines limits 0 .start (Text.pieces (· == ';') marks) (Text.pieces (· == ';') mappings)

/-- The difference between a value and the one before it. -/
def writeDifference (before after : Nat) : List Char :=
  Vlq.write ((after : Int) - before)

/-- The cursor behind a token. -/
def Cursor.after (cursor : Cursor) (token : Token) : Cursor :=
  match token.origin with
  | none => { cursor with column := token.generated.column }
  | some origin =>
    { column := token.generated.column
      source := origin.source
      original := token.cursor
      name := origin.name.getD cursor.name }

def writeSegment (cursor : Cursor) (token : Token) : List Char :=
  writeDifference cursor.column.toNat token.generated.column.toNat ++
    match token.origin with
    | none => []
    | some origin =>
      writeDifference cursor.source origin.source ++
        writeDifference cursor.original.line.toNat token.cursor.line.toNat ++
        writeDifference cursor.original.column.toNat token.cursor.column.toNat ++
        match origin.name with
        | none => []
        | some name => writeDifference cursor.name name

/-- Writes tokens after the one written last, from the given line on. A token equal to the one
before it on the same line is left out. -/
def writeFrom (line : UInt32) (cursor : Cursor) (last : Option Token) : List Token → List Char
  | [] => []
  | token :: rest =>
    let steps := (token.generated.line - line).toNat
    if steps = 0 then
      if last = some token then writeFrom line cursor last rest
      else
        (if last.isSome then [','] else []) ++ writeSegment cursor token ++
          writeFrom line (cursor.after token) (some token) rest
    else
      List.replicate steps ';' ++ writeSegment { cursor with column := 0 } token ++
        writeFrom token.generated.line (cursor.after token) (some token) rest

/-- The mappings text of tokens. -/
def write (tokens : List Token) : List Char :=
  writeFrom 0 .start none tokens

end SingleFile.Mappings
