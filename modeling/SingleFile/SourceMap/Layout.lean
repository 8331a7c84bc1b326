import SingleFile.Json.Fields
import SingleFile.Json.Parser
import SingleFile.SourceMap.Tree

/-! # The layout of a map in JSON

A map is a record of thirteen fields, any of which may be missing or null. Sections make it an
indexed map. Metadata about functions and modules must have the right form but says nothing about
tokens. Names may be values of any kind; numbers stand for their printed form.
-/

namespace SingleFile

/-- A map without sections as its record gives it, the mappings not yet read. -/
structure FlatRecord where
  file : Option String
  sources : List String
  root : Option String
  contents : List (Option String)
  names : List String
  marks : String
  mappings : String
  debugId : Option DebugId

namespace Layout

open Json

def fieldNames : List String :=
  ["version", "file", "sources", "sourceRoot", "sourcesContent", "sections", "names",
    "rangeMappings", "mappings", "x_facebook_offsets", "x_metro_module_paths",
    "x_facebook_sources", "debug_id"]

/-- How many containers a map's text may nest. -/
def nestingLimit : Nat := 127

/-- A file name; a value of another kind is no file name, but one all the same. -/
def fileName? (room : Nat) (value : Json) : Option String :=
  match value with
  | .string text => text
  | _ => if isReadable room value then some "<invalid>" else none

def name? (room : Nat) (value : Json) : Option String :=
  if isReadable room value then some (label value) else none

def debugId? (value : Json) : Option DebugId :=
  (asText? value).bind fun text => DebugId.parse? text.toList

/-- One entry of function metadata: names and mappings. -/
def functions? (room : Nat) (value : Json) : Option Unit := do
  match room, ← fields? ["names", "mappings"] 2 value with
  | room + 1, [some names, some mappings] =>
    let _ ← items? room (fun _ => asText?) names
    let _ ← asText? mappings
    some ()
  | _, _ => none

/-- Checks the fields that say nothing about tokens. -/
def metadata? (room : Nat) (offsets modules functions : Option Json) : Option Unit := do
  let _ ← optional? (items? room fun _ => orNull? asUInt32?) offsets
  let _ ← optional? (items? room fun _ => asText?) modules
  let _ ← optional? (items? room fun room => orNull? (items? room functions?)) functions
  some ()

def flatRecord? (room : Nat) (file sources root contents names marks mappings debugId : Option Json) :
    Option FlatRecord := do
  let file ← optional? (fileName? room) file
  let sources ← optional? (items? room fun _ => orNull? asText?) sources
  let root ← optional? asText? root
  let contents ← optional? (items? room fun _ => orNull? asText?) contents
  let names ← optional? (items? room name?) names
  let marks ← optional? asText? marks
  let mappings ← optional? asText? mappings
  let debugId ← optional? debugId? debugId
  some
    { file
      sources := (sources.getD []).map (·.getD "")
      root
      contents := contents.getD []
      names := names.getD []
      marks := marks.getD ""
      mappings := mappings.getD ""
      debugId }

def offset? (room : Nat) (value : Json) : Option Point := do
  match room, ← fields? ["line", "column"] 2 value with
  | _ + 1, [some line, some column] => some ⟨← asUInt32? line, ← asUInt32? column⟩
  | _, _ => none

mutual

/-- Reads the record of a map, in a place where `room` more containers may be opened. -/
def map? : Nat → Json → Option (MapTree FlatRecord)
  | 0, _ => none
  | room + 1, value => do
    match ← fields? fieldNames fieldNames.length value with
    | [version, file, sources, root, contents, sections, names, marks, mappings, offsets, modules,
        functions, debugId] =>
      let _ ← optional? asUInt32? version
      let _ ← metadata? room offsets modules functions
      let record ← flatRecord? room file sources root contents names marks mappings debugId
      match ← optional? (sections? room) sections with
      | none => some (.single record)
      | some sections => some (.indexed record.file sections)
    | _ => none

def sections? : Nat → Json → Option (List (Section (MapTree FlatRecord)))
  | room + 1, .array sections => sections.mapM (section? room)
  | _, _ => none

def section? : Nat → Json → Option (Section (MapTree FlatRecord))
  | 0, _ => none
  | room + 1, value => do
    match ← fields? ["offset", "url", "map"] 3 value with
    | [some offset, url, map] =>
      some ⟨← offset? room offset, ← optional? asText? url, ← optional? (map? room) map⟩
    | _ => none

end

/-- Skips a first line that starts with a closing bracket or an apostrophe, which protects a map
from being run as a script. A carriage return in it must belong to a line break. -/
def skipGuardLine (text : List Char) : Except DecodeError (List Char) :=
  match text with
  | c :: _ => if c ∈ [')', ']', '}', '\''] then skipLine text else .ok text
  | [] => .ok []
where
  skipLine : List Char → Except DecodeError (List Char)
    | [] => .ok []
    | '\n' :: rest => .ok ('\n' :: rest)
    | '\r' :: c :: rest => if c = '\n' then .ok (c :: rest) else .error .expectedNewline
    | _ :: rest => skipLine rest

/-- Reads the text of a map. -/
def read (text : String) : Except DecodeError (MapTree FlatRecord) := do
  let text ← skipGuardLine text.toList
  match (parse? text).bind (map? nestingLimit) with
  | some tree => return tree
  | none => throw .badJson

end Layout

end SingleFile
