import SingleFile.Proofs.Component.Failures
import SingleFile.Proofs.Component.Sections
import SingleFile.Proofs.Component.Separation

/-! # Maps switched off

Switching maps off has the same effect as compilers that give none: every stage, and so the whole
assembly, has the same result. What a compiler's map says is then never looked at, so it changes
nothing and no assembly is refused because a map cannot be read.
-/

namespace SingleFile

open ModuleText

/-- The dictionary with every value changed by a function. -/
def Dictionary.mapValues {κ α β : Type} (f : α → β) (dictionary : Dictionary κ α) : Dictionary κ β where
  entries := dictionary.entries.map fun entry => (entry.1, f entry.2)
  keys_nodup := by
    rw [List.map_map]
    exact dictionary.keys_nodup

theorem Dictionary.find?_mapValues {κ α β : Type} [DecidableEq κ] (f : α → β)
    (dictionary : Dictionary κ α) (key : κ) :
    (dictionary.mapValues f).find? key = (dictionary.find? key).map f := by
  simp only [mapValues, find?, List.find?_map, Option.map_map, Function.comp_def]

/-- Two compilers give the same code or failure for the same text, whatever maps they give. -/
def BlockCompiler.AgreesButForMaps (first second : BlockCompiler) : Prop :=
  ∀ source fileName, (first source fileName).map (·.code) = (second source fileName).map (·.code)

theorem BlockCompiler.AgreesButForMaps.withoutMap_eq {first second : BlockCompiler}
    (agree : first.AgreesButForMaps second) : first.withoutMap = second.withoutMap := by
  funext source fileName
  have same := agree source fileName
  rw [withoutMap, withoutMap]
  cases given : first source fileName <;> cases given' : second source fileName <;>
    simp_all [Except.map]

/-- Every compiler of the registry less its maps. -/
def Registry.withoutMaps (registry : Registry) : Registry :=
  ⟨registry.compilers.mapValues BlockCompiler.withoutMap⟩

theorem Registry.find?_withoutMaps (registry : Registry) (language : String) :
    registry.withoutMaps.find? language =
      (registry.find? language).map BlockCompiler.withoutMap :=
  registry.compilers.find?_mapValues _ _

/-- Two registries have compilers for the same languages, which agree but for their maps. -/
def Registry.AgreesButForMaps (first second : Registry) : Prop :=
  ∀ language, Option.Rel BlockCompiler.AgreesButForMaps (first.find? language) (second.find? language)

theorem Registry.AgreesButForMaps.find?_withoutMaps_eq {first second : Registry}
    (agree : first.AgreesButForMaps second) (language : String) :
    first.withoutMaps.find? language = second.withoutMaps.find? language := by
  have related := agree language
  rw [find?_withoutMaps, find?_withoutMaps]
  revert related
  generalize first.find? language = known, second.find? language = known'
  rintro (agree | _)
  · rw [Option.map_some, Option.map_some, agree.withoutMap_eq]
  · rfl

namespace Toolchain

variable {tools tools' : Toolchain}

/-- The same tools with maps switched on and compilers that give none. -/
def unmapped (tools : Toolchain) : Toolchain where
  registry := tools.registry.withoutMaps
  config := { tools.config with sourceMap := true }
  files := tools.files

def withRegistry (tools : Toolchain) (registry : Registry) : Toolchain :=
  { tools with registry }

/-- Two sets of tools make the same of a document, stage by stage and as a whole. -/
structure SameResults (tools tools' : Toolchain) (document : Document)
    (compiler : Option TemplateCompiler) : Prop where
  script : tools.compileScript document = tools'.compileScript document
  styles : tools.compileStyles document = tools'.compileStyles document
  assembly : tools.assemble document compiler = tools'.assemble document compiler

theorem WorkAlike.sameResults (alike : tools.WorkAlike tools')
    (inline : tools.config.inlineSourceMap = tools'.config.inlineSourceMap) (document : Document)
    (compiler : Option TemplateCompiler) : tools.SameResults tools' document compiler where
  script := alike.compileScript document
  styles := alike.compileStyles document
  assembly := by
    simp only [assemble, alike.compileScript, alike.compileStyles, alike.compileTemplate, inline]

theorem compiler?_of_on (on : tools.config.sourceMap = true) (language : String) :
    tools.compiler? language = tools.registry.find? language := by
  simp only [compiler?, on, if_true, Option.map_id']

theorem compiler?_of_off (off : tools.config.sourceMap = false) (language : String) :
    tools.compiler? language = tools.registry.withoutMaps.find? language := by
  simp only [compiler?, off, Bool.false_eq_true, if_false, Registry.find?_withoutMaps]

theorem workAlike_unmapped (off : tools.config.sourceMap = false) : tools.WorkAlike tools.unmapped where
  resolve _ := rfl
  compiler language := by
    rw [compiler?_of_off off, compiler?_of_on rfl]
    rfl
  files := rfl

theorem workAlike_of_agreesButForMaps (off : tools.config.sourceMap = false) {registry : Registry}
    (agree : tools.registry.AgreesButForMaps registry) :
    tools.WorkAlike (tools.withRegistry registry) where
  resolve _ := rfl
  compiler language := by
    have off' : (tools.withRegistry registry).config.sourceMap = false := off
    rw [compiler?_of_off off, compiler?_of_off off', agree.find?_withoutMaps_eq]
    rfl
  files := rfl

/-- With maps switched off, a script has none. -/
theorem map_eq_none_of_off (off : tools.config.sourceMap = false) {document : Document}
    {script : Option Script} (success : tools.compileScript document = .ok script) :
    script.bind (·.map) = none := by
  rcases compileScript_eq_ok_iff.mp success with ⟨_, rfl⟩ | ⟨part, source, block, _, compiled, rfl⟩
  · rfl
  · obtain ⟨_, given, _, _, rfl⟩ := compileText_eq_ok_iff.mp (compile_eq_ok_iff.mp compiled).2
    simp only [scriptOf, off, Bool.false_eq_true, if_false, Option.bind_some]

/-- A section is not refused for its map, which is not read before the module is written. -/
theorem SectionFails.ne_map {document : Document} {part : DocumentSection} {error : CompileError}
    (fails : tools.SectionFails document part error) (cause : MapError) : error ≠ .map cause := by
  cases fails with
  | load fails =>
    cases fails
    exact nofun
  | unknownLanguage => exact nofun
  | block => exact nofun

theorem TemplateFails.ne_map {document : Document} {compiler : Option TemplateCompiler}
    {error : CompileError} (fails : tools.TemplateFails document compiler error) (cause : MapError) :
    error ≠ .map cause := by
  cases fails with
  | load _ _ fails =>
    cases fails
    exact nofun
  | block => exact nofun

/-- With maps switched off, no assembly is refused because a map cannot be read. -/
theorem assemble_ne_malformed (off : tools.config.sourceMap = false) (document : Document)
    (compiler : Option TemplateCompiler) (fault : DecodeError) :
    tools.assemble document compiler ≠ .error (.map (.malformed fault)) := by
  rw [ne_eq, assemble_eq_error_iff, compileScript_eq_error_iff, compileStyles_eq_error_iff,
    compileTemplate_eq_error_iff]
  rintro (⟨part, _, fails⟩ | ⟨script, compiled, ⟨_, part, _, _, _, fails⟩ | ⟨_, _, fails |
    ⟨render, _, cause, failure, malformed⟩⟩⟩)
  · exact fails.ne_map _ rfl
  · exact fails.ne_map _ rfl
  · exact fails.ne_map _ rfl
  · -- what is left is the map, and there is no text to be malformed
    obtain ⟨side, rfl⟩ := DocumentMap.exists_side_of_ofParts (map_eq_none_of_off off compiled) failure
    cases malformed

/-- Switching maps off has the effect of compilers that give none. So no registry whose compilers
differ in their maps only makes a difference, and a map that cannot be read does no harm. -/
theorem sameResults_of_off (off : tools.config.sourceMap = false) (document : Document)
    (compiler : Option TemplateCompiler) :
    tools.SameResults tools.unmapped document compiler ∧
      (∀ registry, tools.registry.AgreesButForMaps registry →
        tools.SameResults (tools.withRegistry registry) document compiler) ∧
      ∀ fault, tools.assemble document compiler ≠ .error (.map (.malformed fault)) :=
  ⟨(workAlike_unmapped off).sameResults rfl document compiler,
    fun _ agree => (workAlike_of_agreesButForMaps off agree).sameResults rfl document compiler,
    assemble_ne_malformed off document compiler⟩

/-- Tools whose compiler gives a map that cannot be read, with maps switched off. -/
def mutedTools : Toolchain :=
  { unreadableTools with config := { Config.default with sourceMap := false } }

/-- The registry with a compiler that gives the same code and another map. -/
def readableRegistry : Registry :=
  plainTools.registry.register "js" fun _ _ => .ok ⟨"x", some twoLineMap⟩

theorem agreesButForMaps_readableRegistry :
    mutedTools.registry.AgreesButForMaps readableRegistry := by
  intro language
  change Option.Rel _ ((plainTools.registry.register "js" _).find? language)
    ((plainTools.registry.register "js" _).find? language)
  rw [Registry.find?_register, Registry.find?_register]
  split
  · exact .some fun _ _ => rfl
  · cases plainTools.registry.find? language with
    | none => exact .none
    | some compile => exact .some fun _ _ => rfl

/-- The map that cannot be read is dropped, and so would be another one. -/
theorem sameResults_mutedTools : ∃ assembly,
    mutedTools.assemble twoPartDocument (some fun _ _ => .ok twoLineRender) = .ok assembly ∧
    mutedTools.unmapped.assemble twoPartDocument (some fun _ _ => .ok twoLineRender) = .ok assembly ∧
    (mutedTools.withRegistry readableRegistry).assemble twoPartDocument
      (some fun _ _ => .ok twoLineRender) = .ok assembly := by
  have off : mutedTools.config.sourceMap = false := rfl
  have scriptCompiled : mutedTools.compileScript twoPartDocument = .ok (some ⟨"x", none, none⟩) := by
    decide +kernel
  obtain ⟨assembly, _, success, _⟩ :=
    exists_assembles_twoPartDocument twoLineRender rfl scriptCompiled rfl (by decide +kernel)
  obtain ⟨unmapped, other, _⟩ := sameResults_of_off off twoPartDocument
    (some fun _ _ => .ok twoLineRender)
  have readable := other readableRegistry agreesButForMaps_readableRegistry
  exact ⟨assembly, success, unmapped.assembly.symm.trans success, readable.assembly.symm.trans success⟩

end Toolchain

end SingleFile
