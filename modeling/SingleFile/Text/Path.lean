import SingleFile.Text.Lines

/-! # Paths

Paths stay texts: joining and taking the parent never normalise, so messages show what was asked
for. Two texts name the same place when their `Key`s are equal: repeated slashes, a slash at the
end and inner `.` components make no difference, a leading `.` and every `..` do.

The base name of a file name is no path of this kind: both the slash and the backslash separate, and
separators at the end are ignored.
-/

namespace SingleFile.Text

def isSeparator (c : Char) : Bool :=
  c == '/' || c == '\\'

/-- The last component of a file name; empty if the name has none. -/
def baseName (fileName : String) : String :=
  let backward := fileName.toList.reverse.dropWhile isSeparator
  String.ofList (backward.takeWhile (!isSeparator ·)).reverse

namespace Path

/-- The components of a path: whether it starts at the root, whether it starts with `.`, and the
names after that. -/
structure Key where
  rooted : Bool
  dotted : Bool
  names : List String
deriving DecidableEq

def isFiller (name : List Char) : Bool :=
  name == [] || name == ['.']

/-- Splits off what a path starts with, the root or a leading `.`; the rest holds the names. -/
def splitStart (path : List Char) : List Char × List (List Char) :=
  match path with
  | '/' :: rest => (['/'], Text.pieces (· == '/') rest)
  | ['.'] => (['.'], [])
  | '.' :: '/' :: rest => (['.'], Text.pieces (· == '/') ('/' :: rest))
  | _ => ([], Text.pieces (· == '/') path)

def key (path : String) : Key :=
  let (start, names) := splitStart path.toList
  { rooted := start == ['/']
    dotted := start == ['.']
    names := (names.filter (!isFiller ·)).map String.ofList }

/-- The path of `inner` seen from `base`; a rooted `inner` stands for itself. -/
def join (base inner : String) : String :=
  if inner.toList.head? = some '/' then inner
  else if base = "" || base.toList.getLast? = some '/' then base ++ inner
  else base ++ "/" ++ inner

/-- The path without its last component, none for the root and for the empty path. What remains
keeps its spelling, less slashes and `.` components at its end. -/
def parent? (path : String) : Option String :=
  let (start, names) := splitStart path.toList
  match names.reverse.dropWhile isFiller with
  | [] => if start = ['.'] then some "" else none
  | _ :: before =>
    some (String.ofList (start ++ Text.joinWith '/' (before.dropWhile isFiller).reverse))

end Path

end SingleFile.Text
