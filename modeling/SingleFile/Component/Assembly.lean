import SingleFile.Component.Toolchain

/-! # Assembling a module

The module is the compiled script followed by the render function, which is attached to the options
the script exports. Without a script the options are empty and exported by the module itself;
without a template, or without a compiler for it, there is no render function.

A module is written fragment by fragment, each ended by a line break, and the line on which the next
fragment starts is known at any time.
-/

namespace SingleFile

structure ModuleText where
  text : String
  line : UInt32
deriving DecidableEq

namespace ModuleText

def empty : ModuleText :=
  ⟨"", 1⟩

/-- Adds a text and a line break. The line that comes next has the right number as long as that fits
a word; the program stops where it does not, and results on line numbers leave such modules out. -/
def addLine (written : ModuleText) (text : String) : ModuleText :=
  ⟨written.text ++ text ++ "\n", written.line + Text.lineCount text⟩

/-- Adds a text that may already end with a line break, and gives the lines it covers. -/
def addBlock (written : ModuleText) (text : String) : LineRange × ModuleText :=
  let after := written.addLine (Text.withoutFinalBreak text)
  (⟨written.line, after.line⟩, after)

/-- Takes the options from what a script exports. -/
def exportedOptions : String :=
  "var __options__ = typeof exports.default === 'function' ? exports.default.options : exports.default"

def emptyOptions : String :=
  "var __options__ = \x7b\x7d"

/-- The script and the line that names its options. -/
def ofScript : Option Script → ModuleText
  | some script => (empty.addBlock script.code).2.addLine exportedOptions
  | none => empty.addLine emptyOptions

/-- Adds the code of a render function and attaches it to the options. -/
def addRender (written : ModuleText) (code : String) : LineRange × ModuleText :=
  let (range, written) := written.addBlock code
  (range, (written.addLine "__options__.render = render").addLine
    "__options__.staticRenderFns = staticRenderFns")

/-- Exports the options unless a script does. -/
def finish (written : ModuleText) : Option Script → ModuleText
  | some _ => written
  | none => written.addLine "exports.default = __options__"

end ModuleText

structure Assembly where
  code : String
  map : DocumentMap
  styles : List CompiledBlock
  render : LineRange
deriving DecidableEq

/-- The code with the map appended as a comment. -/
def Assembly.codeWithMap (assembly : Assembly) : String :=
  assembly.code ++ "\n//# sourceMappingURL=" ++ assembly.map.dataUrl

namespace Toolchain

/-- The render function of a document, with the line its template starts on. -/
def compileTemplate (tools : Toolchain) (document : Document)
    (compiler : Option TemplateCompiler) : Except CompileError (Option (String × UInt32)) :=
  match document.template, compiler with
  | some part, some compiler => do
    let text ← tools.sectionText document part
    let code ← (compiler text document.fileName).mapError .block
    return some (code, part.startLine)
  | _, _ => .ok none

/-- Compiles a document into a module and its map: the script first, then the styles, then the
template, and last the map. -/
def assemble (tools : Toolchain) (document : Document) (compiler : Option TemplateCompiler) :
    Except CompileError Assembly := do
  let script ← tools.compileScript document
  let styles ← tools.compileStyles document
  let start := ModuleText.ofScript script
  let (render, templateLine, written) ← match ← tools.compileTemplate document compiler with
    | none => pure (LineRange.mk start.line start.line, 1, start)
    | some (code, line) =>
      let (range, written) := start.addRender code
      pure (range, line, written)
  let map ← (DocumentMap.ofParts script document.text document.fileName render
    templateLine).mapError .map
  let assembly := Assembly.mk (written.finish script).text map styles render
  if tools.config.inlineSourceMap then
    return { assembly with code := assembly.codeWithMap }
  else return assembly

end Toolchain

end SingleFile
