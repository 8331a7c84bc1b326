import SingleFile.Component.Assembly
import SingleFile.Proofs.Except

/-! # What becomes of a section

A section is loaded from the document or from its file, compiled by the compiler of its language, and
keeps the map it was given only if maps are switched on. Each step succeeds exactly as said here, and
a script is the compiled form of its section. A stage reads nothing of its tools but how languages
are resolved, the compilers less the maps that are dropped, and the files.
-/

namespace SingleFile

/-- The compiler less the maps it gives. -/
def BlockCompiler.withoutMap (compile : BlockCompiler) : BlockCompiler :=
  fun source fileName => (compile source fileName).map fun block => { block with map := none }

namespace Toolchain

variable {tools : Toolchain} {document : Document} {part : DocumentSection} {source : SectionText}
  {text : String} {block : CompiledBlock} {script : Option Script}

/-- The text of a section: its own behind the padding, or that of its file as it is. -/
inductive Loads (tools : Toolchain) (document : Document) (part : DocumentSection) :
    SectionText → Prop
  | inline {text : String} (inside : part.content = .inline text) :
      Loads tools document part ⟨padding part.startLine ++ text, false⟩
  | external {path text : String} (outside : part.content = .external path)
      (read : tools.files.read (Text.Path.join document.directory path) = .ok text) :
      Loads tools document part ⟨text, true⟩

theorem load_eq_ok_iff : tools.load document part = .ok source ↔ tools.Loads document part source := by
  constructor
  · intro success
    unfold load at success
    cases content : part.content with
    | inline text =>
      simp only [content] at success
      cases success
      exact .inline content
    | external path =>
      simp only [content] at success
      cases read : tools.files.read (Text.Path.join document.directory path) with
      | error cause => simp [read] at success
      | ok text =>
        simp only [read] at success
        cases success
        exact .external content read
  · intro loads
    cases loads with
    | inline inside => simp only [load, inside]
    | external outside read => simp only [load, outside, read]

theorem compileText_eq_ok_iff : tools.compileText document part text = .ok block ↔
    ∃ compile given, tools.registry.find? (tools.config.resolve part.language) = some compile ∧
      compile text document.fileName = .ok given ∧
      block = { given with map := if tools.config.sourceMap then given.map else none } := by
  cases known : tools.registry.find? (tools.config.resolve part.language) with
  | none => simp [compileText, known]
  | some compile =>
    cases compiled : compile text document.fileName with
    | error failure => simp [compileText, known, compiled]
    | ok given =>
      simp only [compileText, known, compiled, Except.ok.injEq, Option.some.injEq]
      constructor
      · rintro rfl
        exact ⟨compile, given, rfl, compiled, rfl⟩
      · rintro ⟨_, _, rfl, found, rfl⟩
        cases compiled.symm.trans found
        rfl

theorem compile_eq_ok_iff : tools.compile document part = .ok (source, block) ↔
    tools.Loads document part source ∧ tools.compileText document part source.text = .ok block := by
  simp only [compile, Except.bind_eq_ok_iff, load_eq_ok_iff, Except.pure_eq_ok_iff, Prod.mk.injEq]
  constructor
  · rintro ⟨_, loads, _, compiled, rfl, rfl⟩
    exact ⟨loads, compiled⟩
  · rintro ⟨loads, compiled⟩
    exact ⟨source, loads, block, compiled, rfl, rfl⟩

/-- The script that a compiled section is, with its text if that stood in a file of its own. -/
def scriptOf (source : SectionText) (block : CompiledBlock) : Script :=
  ⟨block.code, block.map, if source.isExternal then some source.text else none⟩

theorem compileScript_eq_ok_iff : tools.compileScript document = .ok script ↔
    (document.script = none ∧ script = none) ∨
      ∃ part source block, document.script = some part ∧
        tools.compile document part = .ok (source, block) ∧ script = some (scriptOf source block) := by
  unfold compileScript
  cases document.script with
  | none =>
    simp only [Except.ok.injEq, reduceCtorEq, false_and, exists_false, or_false, true_and]
    exact eq_comm
  | some part =>
    simp only [Except.bind_eq_ok_iff, Except.pure_eq_ok_iff, reduceCtorEq, false_and, false_or,
      Option.some.injEq, exists_and_left, exists_eq_left']
    constructor
    · rintro ⟨⟨source, block⟩, compiled, rfl⟩
      exact ⟨source, block, compiled, rfl⟩
    · rintro ⟨source, block, compiled, rfl⟩
      exact ⟨(source, block), compiled, rfl⟩

/-- The compiler of a language, less its maps if maps are switched off. -/
def compiler? (tools : Toolchain) (language : String) : Option BlockCompiler :=
  (tools.registry.find? language).map fun compile =>
    if tools.config.sourceMap then compile else compile.withoutMap

theorem compileText_eq : tools.compileText document part text =
    match tools.compiler? (tools.config.resolve part.language) with
    | none => .error (.unknownLanguage (tools.config.resolve part.language) part.kind)
    | some compile => (compile text document.fileName).mapError .block := by
  cases known : tools.registry.find? (tools.config.resolve part.language) with
  | none => simp only [compileText, compiler?, known, Option.map_none]
  | some compile =>
    simp only [compileText, compiler?, known, Option.map_some]
    cases maps : tools.config.sourceMap <;> cases compiled : compile text document.fileName <;>
      simp [BlockCompiler.withoutMap, compiled, Except.mapError, Except.map]

/-- Tools that resolve languages, compile and read files alike. -/
structure WorkAlike (tools tools' : Toolchain) : Prop where
  resolve : ∀ language, tools.config.resolve language = tools'.config.resolve language
  compiler : ∀ language, tools.compiler? language = tools'.compiler? language
  files : tools.files = tools'.files

namespace WorkAlike

variable {tools' : Toolchain}

theorem load (alike : tools.WorkAlike tools') (document : Document) (part : DocumentSection) :
    tools.load document part = tools'.load document part := by
  rw [Toolchain.load, Toolchain.load, alike.files]

theorem compileText (alike : tools.WorkAlike tools') (document : Document) (part : DocumentSection)
    (text : String) : tools.compileText document part text = tools'.compileText document part text := by
  rw [compileText_eq, compileText_eq, alike.resolve, alike.compiler]

theorem compile (alike : tools.WorkAlike tools') (document : Document) (part : DocumentSection) :
    tools.compile document part = tools'.compile document part := by
  simp only [Toolchain.compile, alike.load, alike.compileText]

theorem compileScript (alike : tools.WorkAlike tools') (document : Document) :
    tools.compileScript document = tools'.compileScript document := by
  simp only [Toolchain.compileScript, alike.compile]

theorem compileStyles (alike : tools.WorkAlike tools') (document : Document) :
    tools.compileStyles document = tools'.compileStyles document := by
  simp only [Toolchain.compileStyles, alike.compile]

theorem compileTemplate (alike : tools.WorkAlike tools') (document : Document)
    (compiler : Option TemplateCompiler) :
    tools.compileTemplate document compiler = tools'.compileTemplate document compiler := by
  simp only [Toolchain.compileTemplate, sectionText, alike.load]

end WorkAlike

end Toolchain

end SingleFile
