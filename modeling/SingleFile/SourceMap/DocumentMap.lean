import SingleFile.SourceMap.Builder
import SingleFile.SourceMap.Codec
import SingleFile.Text.Lines
import SingleFile.Text.Path

/-! # The map of a document

A module made from a document has one map whose only source is the document, or the file its script
was taken from. The script part comes from the script's own map, or line by line where it has none;
the render part leads every line of the render function to the line where the template starts.

A compiled script carries the map its compiler gave as text, which is read only here.
-/

namespace SingleFile

/-- A compiled script; `external` is the text of its file if it does not stand in the document. -/
structure Script where
  code : String
  map : Option String
  external : Option String
deriving DecidableEq

/-- Where the script of a document came from. -/
inductive ScriptOrigin where
  | absent
  | inline (code : String) (map : Option String)
  | external (code : String) (map : Option String) (content : String)
deriving DecidableEq

def ScriptOrigin.of : Option Script → ScriptOrigin
  | none => .absent
  | some ⟨code, map, none⟩ => .inline code map
  | some ⟨code, map, some content⟩ => .external code map content

def ScriptOrigin.isExternal : ScriptOrigin → Bool
  | .external .. => true
  | _ => false

/-- One mapping as seen from outside. -/
structure Mapping where
  generated : Position
  original : Option Position
  name : Option String
deriving DecidableEq

/-- A trace as seen from outside. It is not seen if its point, or the one it leads to, has no
position. -/
def Trace.mapping? (trace : Trace) : Option Mapping := do
  let generated ← trace.generated.toPosition?
  match trace.origin with
  | none => return ⟨generated, none, none⟩
  | some (_, name) => return ⟨generated, some (← trace.cursor.toPosition?), name⟩

/-- Module lines from `first` up to, but not including, `stop`. -/
structure LineRange where
  first : UInt32
  stop : UInt32
deriving DecidableEq

def LineRange.size (range : LineRange) : Nat :=
  range.stop.toNat - range.first.toNat

structure DocumentMap where
  map : SourceMap
deriving DecidableEq

namespace DocumentMap

/-- The mappings of a script, gathered for one source. -/
def scriptPart (source code : String) : Option String → Except MapError MapBuilder
  | some map => (SourceMap.decode map).map (MapBuilder.ofMap source) |>.mapError .malformed
  | none => MapBuilder.addLines id (Text.lines code).length 1 (.empty source)

/-- Adds the mappings of a render function whose template starts at the given line. -/
def renderPart (render : LineRange) (templateLine : UInt32) (builder : MapBuilder) :
    Except MapError MapBuilder :=
  builder.addLines (fun _ => templateLine) render.size render.first

/-- The map of a module. Behind an external script the render function stays unmapped, because its
template is in another file. -/
def ofParts (script : Option Script) (documentText fileName : String) (render : LineRange)
    (templateLine : UInt32) : Except MapError DocumentMap := do
  let source := Text.baseName fileName
  let builder ← match ScriptOrigin.of script with
    | .absent => renderPart render templateLine ((MapBuilder.empty source).setContent documentText)
    | .inline code map => do
      let builder ← scriptPart source code map
      renderPart render templateLine (builder.setContent documentText)
    | .external code map content => do
      let builder ← scriptPart source code map
      pure (builder.setContent content)
  return ⟨builder.build⟩

def source? (map : DocumentMap) : Option Source :=
  map.map.rootedSources.head?

def size (map : DocumentMap) : Nat :=
  map.map.tokens.length

/-- The mappings in the order of the generated text. Listing them stops the program if one of them has
no position. -/
def mappings? (map : DocumentMap) : Option (List Mapping) :=
  map.map.traces.mapM Trace.mapping?

def mappingsOnLine? (map : DocumentMap) (line : UInt32) : Option (List Mapping) :=
  map.mappings?.map fun mappings => mappings.filter (·.generated.line = line)

/-- Whether there is such a mapping. The search ends at the first one, so it may not come to one
without a position. -/
def hasMapping? (map : DocumentMap) (generated original : Position) : Option Bool :=
  map.map.traces.anyM fun trace => trace.mapping?.map fun mapping =>
    mapping.generated = generated && mapping.original = some original

def encode (map : DocumentMap) : String :=
  map.map.encode

/-- The map as a data URL. -/
def dataUrl (map : DocumentMap) : String :=
  "data:application/json;charset=utf-8;base64," ++
    String.ofList (Text.Base64.encode map.encode.toUTF8.data.toList)

end DocumentMap

end SingleFile
