import SingleFile.Component.Compiler
import SingleFile.Component.Config
import SingleFile.Component.Document
import SingleFile.SourceMap.DocumentMap

/-! # Compiling the sections of a document

A toolchain brings together the compilers, the configuration and the files. Inline text is padded
with blank lines, so that its lines have the numbers they have in the document; text from a file is
compiled as it is.
-/

namespace SingleFile

/-- Why a component cannot be compiled. -/
inductive CompileError where
  | block (text : String)
  | unknownLanguage (language : String) (kind : SectionKind)
  | externalSource (path document : String) (cause : FileError)
  | map (cause : MapError)
deriving DecidableEq

/-- The text of a failure; what a compiler or a map reports is passed on unchanged. -/
def CompileError.message : CompileError → String
  | .block text => text
  | .unknownLanguage language kind =>
    "No compiler registered for language '" ++ language ++ "' (" ++ kind.name ++ " section)"
  | .externalSource path document cause =>
    "Failed to read " ++ path ++ " referenced by " ++ document ++ ": " ++ cause.message
  | .map cause => cause.message

structure Toolchain where
  registry : Registry
  config : Config
  files : FileSource

/-- The text of a section as its compiler sees it. -/
structure SectionText where
  text : String
  isExternal : Bool
deriving DecidableEq

/-- Blank lines in front of a text that starts on the given line. -/
def padding (startLine : UInt32) : String :=
  String.ofList (List.replicate (startLine.toNat - 1) '\n')

namespace Toolchain

def load (tools : Toolchain) (document : Document) (part : DocumentSection) :
    Except CompileError SectionText :=
  match part.content with
  | .inline text => .ok ⟨padding part.startLine ++ text, false⟩
  | .external source =>
    let path := Text.Path.join document.directory source
    match tools.files.read path with
    | .ok text => .ok ⟨text, true⟩
    | .error cause => .error (.externalSource path document.fileName cause)

/-- Compiles a text as a section, and drops the map if maps are switched off. -/
def compileText (tools : Toolchain) (document : Document) (part : DocumentSection)
    (text : String) : Except CompileError CompiledBlock :=
  let language := tools.config.resolve part.language
  match tools.registry.find? language with
  | none => .error (.unknownLanguage language part.kind)
  | some compiler =>
    match compiler text document.fileName with
    | .error text => .error (.block text)
    | .ok block => .ok { block with map := if tools.config.sourceMap then block.map else none }

/-- The text and the compiled form of a section. -/
def compile (tools : Toolchain) (document : Document) (part : DocumentSection) :
    Except CompileError (SectionText × CompiledBlock) := do
  let source ← tools.load document part
  let block ← tools.compileText document part source.text
  return (source, block)

/-- Compiles the script, if the document has one. -/
def compileScript (tools : Toolchain) (document : Document) :
    Except CompileError (Option Script) :=
  match document.script with
  | none => .ok none
  | some part => do
    let (source, block) ← tools.compile document part
    return some ⟨block.code, block.map, if source.isExternal then some source.text else none⟩

/-- Compiles the styles in the order of the document. -/
def compileStyles (tools : Toolchain) (document : Document) :
    Except CompileError (List CompiledBlock) :=
  document.styles.mapM fun part => (tools.compile document part).map (·.2)

def sectionText (tools : Toolchain) (document : Document) (part : DocumentSection) :
    Except CompileError String :=
  (tools.load document part).map (·.text)

end Toolchain

end SingleFile
