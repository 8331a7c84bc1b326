import SingleFile.SourceMap.Basic
import SingleFile.SourceMap.Error

/-! # Building a map with one source

Mappings are gathered in any order and all lead to the same source. The built map has them in the
order of their generated points; those at one point keep the order in which they came.
-/

namespace SingleFile

/-- Where a mapping leads in the one source. -/
structure Target where
  point : Point
  name : Option String
deriving DecidableEq

structure Entry where
  generated : Point
  target : Option Target
deriving DecidableEq

structure MapBuilder where
  source : String
  content : Option String
  entries : Array Entry
deriving DecidableEq

/-- The entry of a trace: whatever its source, it now leads to the one source. -/
def Trace.entry (trace : Trace) : Entry where
  generated := trace.generated
  target := trace.origin.map fun (_, name) => ⟨trace.cursor, name⟩

namespace MapBuilder

def empty (source : String) : MapBuilder :=
  ⟨source, none, #[]⟩

/-- Takes over the mappings of a map. Its sources, their contents and its file are dropped. -/
def ofMap (source : String) (map : SourceMap) : MapBuilder :=
  ⟨source, none, (map.traces.map Trace.entry).toArray⟩

/-- Adds a mapping. Neither position may be on line zero; the generated one is looked at first. -/
def add (builder : MapBuilder) (generated original : Position) (name : Option String) :
    Except MapError MapBuilder :=
  match generated.toPoint?, original.toPoint? with
  | none, _ => .error (.lineZero .generated)
  | some _, none => .error (.lineZero .original)
  | some generated, some original =>
    .ok { builder with entries := builder.entries.push ⟨generated, some ⟨original, name⟩⟩ }

def setContent (builder : MapBuilder) (content : String) : MapBuilder :=
  { builder with content := some content }

def size (builder : MapBuilder) : Nat :=
  builder.entries.size

/-- The entries in the order of the built map. -/
def sorted (builder : MapBuilder) : List Entry :=
  builder.entries.toList.mergeSort fun first second => first.generated.le second.generated

/-- The names that entries use, in the order of their first use. -/
def nameTable (entries : List Entry) : List String :=
  SourceMap.table (entries.filterMap fun entry => entry.target.bind (·.name))

def token (names : List String) (entry : Entry) : Token where
  generated := entry.generated
  cursor := (entry.target.map (·.point)).getD ⟨0, 0⟩
  origin := entry.target.map fun target => ⟨0, target.name.map fun name => names.idxOf name⟩
  isRange := false

def build (builder : MapBuilder) : SourceMap :=
  let names := nameTable builder.sorted
  { file := none
    root := none
    sources := [⟨builder.source, builder.content⟩]
    names
    tokens := builder.sorted.map (token names)
    debugId := none }

/-- Adds a mapping for each of `count` lines from `line` on, from the start of the line to the
start of the line that `original` gives for it. -/
def addLines (original : UInt32 → UInt32) :
    (count : Nat) → (line : UInt32) → MapBuilder → Except MapError MapBuilder
  | 0, _, builder => .ok builder
  | count + 1, line, builder => do
    let builder ← builder.add (.lineStart line) (.lineStart (original line)) none
    addLines original count (line + 1) builder

end MapBuilder

end SingleFile
