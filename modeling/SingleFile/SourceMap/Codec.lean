import SingleFile.Json.Printer
import SingleFile.SourceMap.Layout
import SingleFile.SourceMap.Mappings

/-! # Reading and writing whole maps

`SourceMap.decode` reads a map's text; an indexed map is flattened. `SourceMap.encode` writes a map
without sections, in the compact form and with its fields in a fixed order.
-/

namespace SingleFile

/-- The sources of a record, each with its content if one is given in its place. -/
def FlatRecord.sourceTable (record : FlatRecord) : List Source :=
  record.sources.mapIdx fun place path => ⟨path, (record.contents[place]?).join⟩

/-- Reads the mappings of a record. -/
def FlatRecord.decode (record : FlatRecord) : Except DecodeError SourceMap := do
  let tokens ← Mappings.read ⟨record.sources.length, record.names.length⟩
    record.marks.toList record.mappings.toList
  return {
    file := record.file
    root := record.root
    sources := record.sourceTable
    names := record.names
    tokens
    debugId := record.debugId }

namespace SourceMap

/-- Reads the text of a map. All sections are read before any are joined, so a section that cannot
be read is reported before one that is missing. -/
def decode (text : String) : Except DecodeError SourceMap := do
  let tree ← Layout.read text
  (← tree.traverse FlatRecord.decode).join

private def textOrNull : Option String → Json
  | none => .null
  | some text => .ofText text

private def field (name : String) (value : Option Json) : List (String × Json) :=
  (value.map fun value => (name, value)).toList

/-- The record of a map; fields without a value are left out. -/
def toJson (map : SourceMap) : Json :=
  let contents :=
    if map.sources.any (·.content.isSome) then
      some (Json.array (map.sources.map fun source => textOrNull source.content))
    else none
  let marks := (RangeMarks.write? map.tokens).map fun marks => Json.ofText (String.ofList marks)
  let debugId := map.debugId.map fun id => Json.ofText (String.ofList id.render)
  .ofFields (
    [("version", .ofNat 3)] ++
    field "file" (map.file.map .ofText) ++
    [("sources", .array (map.sources.map fun source => .ofText source.path))] ++
    field "sourceRoot" (map.root.map .ofText) ++
    field "sourcesContent" contents ++
    [("names", .array (map.names.map .ofText))] ++
    field "rangeMappings" marks ++
    [("mappings", .ofText (String.ofList (Mappings.write map.tokens)))] ++
    field "debug_id" debugId)

def encode (map : SourceMap) : String :=
  String.ofList map.toJson.render

end SourceMap

end SingleFile
