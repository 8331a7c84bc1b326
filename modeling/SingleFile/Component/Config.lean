import SingleFile.Dictionary
import SingleFile.Files.Store
import SingleFile.Json.Fields
import SingleFile.Json.Parser
import SingleFile.Text.Path

/-! # Configuration

A configuration says whether compilers' maps are kept, whether the module carries its map, and
which language tags are aliases. It is read from a JSON file in the working directory; fields that
are missing keep their default.
-/

namespace SingleFile

structure Config where
  sourceMap : Bool
  inlineSourceMap : Bool
  aliases : Dictionary String String

inductive ConfigError where
  | file (cause : FileError)
  | badJson
deriving DecidableEq

def ConfigError.message : ConfigError → String
  | .file cause => "IO error: " ++ cause.message
  | .badJson => "bad json"

namespace Config

open Json

def default : Config :=
  ⟨true, false, .empty⟩

def fileName : String := "sfc.config.json"

/-- The canonical names that need no configuration. -/
def builtinAlias? : String → Option String
  | "javascript" => some "js"
  | "babel" => some "js"
  | "jsx" => some "js"
  | "ts" => some "typescript"
  | "coffee" => some "coffeescript"
  | _ => none

/-- The canonical name of a language tag. Configured aliases come first; an alias is followed for
one step only. -/
def resolve (config : Config) (tag : String) : String :=
  ((config.aliases.find? tag).or (builtinAlias? tag)).getD tag

def fieldNames : List String :=
  ["sourceMap", "inlineSourceMap", "langAliases"]

/-- Reads a field that may be missing but not null. -/
def setting? {α : Type} (read : Json → Option α) (missing : α) : Option Json → Option α
  | none => some missing
  | some value => read value

/-- Reads an object of texts; the last of repeated names counts. -/
def aliases? : Json → Option (Dictionary String String)
  | .object members => do
    let entries ← members.mapM fun (name, value) => do some (← name, ← asText? value)
    some (.ofList entries)
  | _ => none

def ofJson? (value : Json) : Option Config := do
  match ← fields? fieldNames 0 value with
  | [sourceMap, inlineSourceMap, aliases] =>
    some
      { sourceMap := ← setting? asBool? default.sourceMap sourceMap
        inlineSourceMap := ← setting? asBool? default.inlineSourceMap inlineSourceMap
        aliases := ← setting? aliases? default.aliases aliases }
  | _ => none

def parse (text : String) : Except ConfigError Config :=
  match (Json.parse? text.toList).bind ofJson? with
  | some config => .ok config
  | none => .error .badJson

/-- The configuration of a directory, the default one if it has no configuration file. -/
def load (files : FileSource) (directory : String) : Except ConfigError Config :=
  let path := Text.Path.join directory fileName
  if files.exists? path then do
    let text ← (files.read path).mapError .file
    parse text
  else .ok default

end Config

end SingleFile
