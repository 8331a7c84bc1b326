import SingleFile.SourceMap.DebugId
import SingleFile.SourceMap.Position
import SingleFile.Text.Lines

/-! # Source maps

A map lists tokens. Each marks a point of a generated text, and most say which point of which
source it came from and under which name. Sources and names are tables; tokens refer to their
entries by number.
-/

namespace SingleFile

/-- A source: its path as listed, and its text if the map carries it. -/
structure Source where
  path : String
  content : Option String
deriving DecidableEq

/-- The table entries a token refers to. Only a token with a source can have a name. The program holds
the numbers in words of 32 bits, so its tables have at most `2 ^ 32` entries; they are unbounded here,
and results on writing a map and reading it again ask for a table that words can number. -/
structure Origin where
  source : Nat
  name : Option Nat
deriving DecidableEq

/-- A mark in the generated text. `cursor` is the original point where there is an origin; without
one it is the last such point of the map so far, and only tells tokens apart. -/
structure Token where
  generated : Point
  cursor : Point
  origin : Option Origin
  isRange : Bool
deriving DecidableEq

structure SourceMap where
  file : Option String
  root : Option String
  sources : List Source
  names : List String
  tokens : List Token
  debugId : Option DebugId
deriving DecidableEq

/-- A token with the entries of the tables in place of their numbers. -/
structure Trace where
  generated : Point
  cursor : Point
  origin : Option (Source × Option String)
  isRange : Bool
deriving DecidableEq

/-- Whether a path is absolute, in a file system or on the web. -/
def isAbsolute (path : String) : Bool :=
  ["/", "http:", "https:"].any fun start => start.toList.isPrefixOf path.toList

/-- The path of a source below a root. Absolute paths stay as they are. -/
def rootedPath (root : Option String) (path : String) : String :=
  let root := root.getD ""
  if root = "" || isAbsolute path then path
  else String.ofList (Text.withoutFinal '/' root.toList) ++ "/" ++ path

namespace SourceMap

/-- The sources with the root put in front of their paths. -/
def rootedSources (map : SourceMap) : List Source :=
  map.sources.map fun source => { source with path := rootedPath map.root source.path }

/-- Looks up in the tables what a token refers to. -/
def trace (sources : List Source) (names : List String) (token : Token) : Trace where
  generated := token.generated
  cursor := token.cursor
  origin := token.origin.bind fun origin =>
    sources[origin.source]?.map fun source =>
      (source, origin.name.bind fun name => names[name]?)
  isRange := token.isRange

def traces (map : SourceMap) : List Trace :=
  map.tokens.map (trace map.rootedSources map.names)

/-- The distinct elements of a list in the order of their first occurrence. -/
def table (entries : List String) : List String :=
  entries.eraseDups

/-- Builds a map from traces: sources and names are numbered by their first use, and the content of
a source is the first one given for it. -/
def ofTraces (file : Option String) (traces : List Trace) : SourceMap :=
  let origins := traces.filterMap (·.origin)
  let paths := table (origins.map (·.1.path))
  let names := table (origins.filterMap (·.2))
  let content (path : String) : Option String :=
    origins.findSome? fun (source, _) => if source.path = path then source.content else none
  { file
    root := none
    sources := paths.map fun path => ⟨path, content path⟩
    names
    tokens := traces.map fun trace =>
      { generated := trace.generated
        cursor := trace.cursor
        origin := trace.origin.map fun (source, name) =>
          ⟨paths.idxOf source.path, name.map fun name => names.idxOf name⟩
        isRange := trace.isRange }
    debugId := none }

/-- The token at a point of the generated text, or the last one before it. Of several tokens at the
very point it is the first. -/
def lookup? (map : SourceMap) (point : Point) : Option Token :=
  (map.tokens.find? (·.generated = point)).or
    (map.tokens.filter (·.generated.le point)).getLast?

end SourceMap

end SingleFile
