/-! # What can be wrong with a source map

`DecodeError` lists the faults of a map that is read, `MapError` adds the one fault of a mapping
that is added: a line number zero. All of them are reported but `DecodeError.overflow`, which stands
for the program stopping where the place of a token does not fit words.
-/

namespace SingleFile

inductive DecodeError where
  | badJson
  | expectedNewline
  | numberUnfinished
  | numberTooLong
  | badSegmentSize (size : Nat)
  | badSource (source : Nat)
  | badName (name : Nat)
  | unresolvedSection (url : Option String)
  | badRangeSymbol (symbol : Char)
  | overflow
deriving DecidableEq

def DecodeError.message : DecodeError → String
  | .badJson => "bad json"
  | .expectedNewline => "expected newline"
  | .numberUnfinished => "leftover cur/shift in vlq decode"
  | .numberTooLong => "vlq decode caused an overflow"
  | .badSegmentSize size => "got " ++ toString size ++ " segments, expected 4 or 5"
  | .badSource source => "bad reference to source #" ++ toString source
  | .badName name => "bad reference to name #" ++ toString name
  | .unresolvedSection url =>
    "cannot flatten the indexed sourcemap: Section has an unresolved sourcemap: " ++
      url.getD "<unknown url>"
  | .badRangeSymbol symbol => "invalid base64 character: " ++ symbol.toString
  | .overflow => "attempt to add with overflow"

/-- The two ends of a mapping. -/
inductive Side where
  | generated
  | original
deriving DecidableEq

def Side.name : Side → String
  | .generated => "generated"
  | .original => "original"

inductive MapError where
  | malformed (cause : DecodeError)
  | lineZero (side : Side)
deriving DecidableEq

def MapError.message : MapError → String
  | .malformed cause => "Malformed source map: " ++ cause.message
  | .lineZero side => "Invalid " ++ side.name ++ " line 0: lines are 1-based"

end SingleFile
