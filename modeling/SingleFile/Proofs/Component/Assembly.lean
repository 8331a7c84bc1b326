import SingleFile.Files.Store
import SingleFile.Proofs.Component.ModuleText
import SingleFile.Proofs.Except
import SingleFile.Proofs.SourceMap.DocumentMap

/-! # The parts of an assembled module

An assembly succeeds exactly if its stages do, and is then put together from what they gave:
`assemble_eq_ok_iff` says so once, for all that is proved of assembled modules. The lines of the
module follow from those of a written one, and the reported range is where they put the render
function.
-/

namespace SingleFile

open ModuleText

namespace Toolchain

variable {tools : Toolchain} {document : Document} {compiler : Option TemplateCompiler}

/-- What becomes of a template: it is left out, or loaded and compiled into a render function. -/
inductive Renders (tools : Toolchain) (document : Document) (compiler : Option TemplateCompiler) :
    Option (String × UInt32) → Prop
  | absent (missing : document.template = none ∨ compiler = none) :
      Renders tools document compiler none
  | compiled {part : DocumentSection} {compile : TemplateCompiler} {text code : String}
      (template : document.template = some part) (given : compiler = some compile)
      (loaded : tools.sectionText document part = .ok text)
      (compiled : compile text document.fileName = .ok code) :
      Renders tools document compiler (some (code, part.startLine))

theorem compileTemplate_eq_ok_iff {render : Option (String × UInt32)} :
    tools.compileTemplate document compiler = .ok render ↔
      tools.Renders document compiler render := by
  constructor
  · intro success
    unfold compileTemplate at success
    cases template : document.template with
    | none =>
      simp only [template] at success
      cases success
      exact .absent (.inl template)
    | some part =>
      cases compiler with
      | none =>
        simp only [template] at success
        cases success
        exact .absent (.inr rfl)
      | some compile =>
        simp only [template] at success
        obtain ⟨text, loaded, success⟩ := Except.bind_eq_ok_iff.mp success
        obtain ⟨code, compiled, success⟩ := Except.bind_eq_ok_iff.mp success
        obtain rfl := Except.pure_eq_ok_iff.mp success
        exact .compiled template rfl loaded (Except.mapError_eq_ok_iff.mp compiled)
  · intro renders
    unfold compileTemplate
    cases renders with
    | absent missing =>
      rcases missing with missing | rfl
      · rw [missing]
      · cases document.template <;> rfl
    | compiled template given loaded compiled =>
      subst given
      simp only [template]
      exact Except.bind_eq_ok_iff.mpr ⟨_, loaded, Except.bind_eq_ok_iff.mpr
        ⟨_, Except.mapError_eq_ok_iff.mpr compiled, rfl⟩⟩

/-- An assembly, the script and render function it was put together from, and their stages. -/
structure Assembles (tools : Toolchain) (document : Document) (compiler : Option TemplateCompiler)
    (script : Option Script) (render : Option (String × UInt32)) (assembly : Assembly) : Prop where
  scriptCompiled : tools.compileScript document = .ok script
  stylesCompiled : tools.compileStyles document = .ok assembly.styles
  renders : tools.Renders document compiler render
  range : assembly.render = (ModuleText.ofParts script (render.map (·.1))).1
  mapped : DocumentMap.ofParts script document.text document.fileName assembly.render
    ((render.map (·.2)).getD 1) = .ok assembly.map
  written : assembly.code = (ModuleText.ofParts script (render.map (·.1))).2.text ++
    if tools.config.inlineSourceMap then "\n//# sourceMappingURL=" ++ assembly.map.dataUrl else ""

/-- The last step of an assembly puts the map behind the code, or leaves the code as it is. -/
private theorem inline_eq_ok_iff {inline : Bool} {text : String} {map : DocumentMap}
    {styles : List CompiledBlock} {range : LineRange} {assembly : Assembly} :
    (if inline = true then pure ⟨(Assembly.mk text map styles range).codeWithMap, map, styles, range⟩
        else pure ⟨text, map, styles, range⟩ : Except CompileError Assembly) = .ok assembly ↔
      ⟨text ++ if inline then "\n//# sourceMappingURL=" ++ map.dataUrl else "", map, styles, range⟩ =
        assembly := by
  cases inline with
  | false => simp [Except.pure_eq_ok_iff]
  | true => simp [Except.pure_eq_ok_iff, Assembly.codeWithMap, String.append_assoc]

/-- An assembly succeeds exactly if its stages do, and holds what they gave. -/
theorem assemble_eq_ok_iff {assembly : Assembly} :
    tools.assemble document compiler = .ok assembly ↔
      ∃ script render, tools.Assembles document compiler script render assembly := by
  rw [assemble]
  simp only [Except.bind_eq_ok_iff, compileTemplate_eq_ok_iff]
  constructor
  · rintro ⟨script, compiled, styles, styled, render, renders, rest⟩
    rcases render with _ | ⟨code, line⟩
    all_goals
      simp only [pure_bind, Except.bind_eq_ok_iff, Except.mapError_eq_ok_iff, inline_eq_ok_iff] at rest
      obtain ⟨map, mapped, rfl⟩ := rest
      exact ⟨script, _, compiled, styled, renders, rfl, mapped, rfl⟩
  · rintro ⟨script, render, compiled, styled, renders, range, mapped, written⟩
    refine ⟨script, compiled, assembly.styles, styled, render, renders, ?_⟩
    obtain ⟨code, map, styles, lines⟩ := assembly
    dsimp only at range written mapped styled ⊢
    subst range written
    rcases render with _ | ⟨code, line⟩
    all_goals
      simp only [pure_bind, Except.bind_eq_ok_iff, Except.mapError_eq_ok_iff, inline_eq_ok_iff]
      exact ⟨map, mapped, rfl⟩

namespace Assembles

variable {script : Option Script} {render : Option (String × UInt32)} {assembly : Assembly}

theorem represents (_ : tools.Assembles document compiler script render assembly) :
    (ModuleText.ofParts script (render.map (·.1))).2.Represents
      (scriptLines script ++ renderLines (render.map (·.1)) ++ exportLines script) :=
  represents_ofParts _ _

theorem code_eq (assembles : tools.Assembles document compiler script render assembly)
    (plain : tools.config.inlineSourceMap = false) :
    assembly.code = (ModuleText.ofParts script (render.map (·.1))).2.text := by
  rw [assembles.written, plain, if_neg Bool.false_ne_true, String.append_empty]

/-- An assembled module has at least as many breaks as lines were written. -/
theorem length_le (assembles : tools.Assembles document compiler script render assembly) :
    (scriptLines script).length + (renderLines (render.map (·.1))).length ≤
      assembly.code.toList.count '\n' := by
  have breaks := assembles.represents.count_breaks
  rw [assembles.written, String.toList_append, List.count_append, breaks]
  simp only [List.length_append]
  omega

/-- In a module that fits 32 bits, the range holds the very lines of the render function. -/
theorem toNat_range (assembles : tools.Assembles document compiler script render assembly)
    (short : assembly.code.toList.count '\n' < 2 ^ 32 - 1) :
    assembly.render.first.toNat = (scriptLines script).length + 1 ∧
      assembly.render.stop.toNat =
        (scriptLines script).length + (render.map fun part => (blockLines part.1).length).getD 0 + 1 := by
  have whole : (ModuleText.ofParts script (render.map (·.1))).2.text.toList.count '\n' ≤
      assembly.code.toList.count '\n' := by
    rw [assembles.written, String.toList_append, List.count_append]
    exact Nat.le_add_right _ _
  have range := toNat_range_ofParts (Nat.lt_of_le_of_lt whole short)
  rwa [← assembles.range, Option.map_map] at range

theorem size_render (assembles : tools.Assembles document compiler script render assembly)
    (short : assembly.code.toList.count '\n' < 2 ^ 32 - 1) :
    assembly.render.size = (render.map fun part => (blockLines part.1).length).getD 0 := by
  obtain ⟨first, stop⟩ := assembles.toNat_range short
  rw [LineRange.size, first, stop, Nat.add_sub_add_right, Nat.add_sub_cancel_left]

end Assembles

/-- An assembly of few lines succeeds if its stages do, the script's own map can be read and the
template does not stand on line zero. -/
theorem exists_assembles {script : Option Script} {render : Option (String × UInt32)}
    {styles : List CompiledBlock} {entries : List Entry}
    (plain : tools.config.inlineSourceMap = false)
    (scriptCompiled : tools.compileScript document = .ok script)
    (stylesCompiled : tools.compileStyles document = .ok styles)
    (renders : tools.Renders document compiler render)
    (read : DocumentMap.scriptEntries script = .ok entries)
    (template : ∀ code line, render = some (code, line) → line ≠ 0)
    (few : ((script.map (·.code)).getD "").toList.count '\n' +
      ((render.map (·.1)).getD "").toList.count '\n' + 5 < 2 ^ 32 - 1) :
    ∃ assembly, tools.Assembles document compiler script render assembly ∧
      tools.assemble document compiler = .ok assembly ∧
      assembly.code.toList.count '\n' < 2 ^ 32 - 1 := by
  have bound := count_ofParts_le script (render.map (·.1))
  have short : (ModuleText.ofParts script (render.map (·.1))).2.text.toList.count '\n' < 2 ^ 32 - 1 :=
    Nat.lt_of_le_of_lt bound few
  have lines : DocumentMap.LinesFit script := by
    rintro given ⟨⟩ _
    rw [Text.length_lines]
    simp only [Option.map_some, Option.getD_some] at few
    omega
  have fits : DocumentMap.RenderFits script (ModuleText.ofParts script (render.map (·.1))).1
      ((render.map (·.2)).getD 1) := by
    intro _ nonempty
    obtain ⟨first, stop⟩ := toNat_range_ofParts short
    constructor
    · intro zero
      rw [zero] at first
      exact Nat.succ_ne_zero _ first.symm
    · cases render with
      | none =>
        rw [first, stop] at nonempty
        exact absurd nonempty (Nat.lt_irrefl _)
      | some part => exact template _ _ rfl
  obtain ⟨map, mapped⟩ : ∃ map, DocumentMap.ofParts script document.text document.fileName
      (ModuleText.ofParts script (render.map (·.1))).1 ((render.map (·.2)).getD 1) = .ok map :=
    ⟨_, DocumentMap.ofParts_eq_ok_iff.mpr ⟨lines, fits, entries, read, rfl⟩⟩
  have assembles : tools.Assembles document compiler script render
      ⟨(ModuleText.ofParts script (render.map (·.1))).2.text, map, styles, _⟩ :=
    ⟨scriptCompiled, stylesCompiled, renders, rfl, mapped, by rw [plain]; exact (String.append_empty ..).symm⟩
  exact ⟨_, assembles, assemble_eq_ok_iff.mpr ⟨_, _, assembles⟩, short⟩

/-- The lines of a module are those of its script with the options, of its render function with what
attaches it, and of its export. The range holds the lines of the render function, and is empty
behind the options where there is none. -/
theorem lines_assemble {assembly : Assembly} (success : tools.assemble document compiler = .ok assembly)
    (plain : tools.config.inlineSourceMap = false)
    (short : assembly.code.toList.count '\n' < 2 ^ 32 - 1) :
    ∃ script render, tools.compileScript document = .ok script ∧
      tools.Renders document compiler render ∧
      Text.lines assembly.code =
        scriptLines script ++ renderLines (render.map (·.1)) ++ exportLines script ++ [""] ∧
      (render = none → assembly.render.first.toNat = (scriptLines script).length + 1 ∧
        assembly.render.stop = assembly.render.first) ∧
      ∀ code line, render = some (code, line) →
        assembly.render.first.toNat < assembly.render.stop.toNat ∧
        ((Text.lines assembly.code).drop (assembly.render.first.toNat - 1)).take
          (assembly.render.stop.toNat - assembly.render.first.toNat) = blockLines code ∧
        (Text.lines assembly.code)[assembly.render.stop.toNat - 1]? =
          some "__options__.render = render" := by
  obtain ⟨script, render, assembles⟩ := assemble_eq_ok_iff.mp success
  have lines := assembles.represents.lines
  rw [← assembles.code_eq plain] at lines
  obtain ⟨first, stop⟩ := assembles.toNat_range short
  refine ⟨script, render, assembles.scriptCompiled, assembles.renders, lines, ?_, ?_⟩
  · rintro rfl
    exact ⟨first, UInt32.toNat_inj.mp (stop.trans first.symm)⟩
  · rintro code line rfl
    simp only [Option.map_some, Option.getD_some, renderLines] at stop lines
    have nonempty : 0 < (blockLines code).length := by
      rw [blockLines, Text.length_lines]
      exact Nat.succ_pos _
    have start : assembly.render.first.toNat - 1 = (scriptLines script).length := by omega
    have size : assembly.render.stop.toNat - assembly.render.first.toNat =
        (blockLines code).length := by omega
    have behind : assembly.render.stop.toNat - 1 =
        (scriptLines script).length + (blockLines code).length := by omega
    refine ⟨by omega, ?_, ?_⟩
    · rw [lines, start, size]
      simp only [List.append_assoc]
      rw [List.drop_left, List.take_left]
    · rw [lines, behind]
      simp only [List.append_assoc]
      rw [List.getElem?_append_right (Nat.le_add_right _ _), Nat.add_sub_cancel_left,
        List.getElem?_append_right (Nat.le_refl _), Nat.sub_self]
      rfl

/-- Pass-through compilers, no files and the default configuration. -/
def plainTools : Toolchain :=
  ⟨.standard, .default, FileStore.empty.source⟩

/-- A script behind one line of the document and a template, both with carriage returns. -/
def twoPartDocument : Document where
  fileName := "/c/F.vue"
  text := "<script>\r\nx\r\n</script>\r\n<template><b/></template>"
  template := some ⟨.template, none, 4, .inline "<b/>"⟩
  script := some ⟨.script, none, 2, .inline "x\r\n"⟩
  styles := []

/-- The script of the document as the pass-through compiler leaves it. -/
def twoPartScript : Script :=
  ⟨"\nx\r\n", none, none⟩

/-- The code of a render function that takes two lines. -/
def twoLineRender : String :=
  "var render\r\nvar staticRenderFns\r\n"

theorem compileScript_twoPartDocument :
    plainTools.compileScript twoPartDocument = .ok (some twoPartScript) := by
  decide +kernel

theorem blockLines_twoLineRender :
    blockLines twoLineRender = ["var render", "var staticRenderFns"] := by
  cbv

/-- A document with the script and the template of `twoPartDocument` is assembled, whatever short
code a compiler makes of them. -/
theorem exists_assembles_twoPartDocument {script : Script} {entries : List Entry} (code : String)
    (plain : tools.config.inlineSourceMap = false)
    (scriptCompiled : tools.compileScript twoPartDocument = .ok (some script))
    (read : DocumentMap.scriptEntries (some script) = .ok entries)
    (few : script.code.toList.count '\n' + code.toList.count '\n' + 5 < 2 ^ 32 - 1) :
    ∃ assembly, tools.Assembles twoPartDocument (some fun _ _ => .ok code) (some script)
        (some (code, 4)) assembly ∧
      tools.assemble twoPartDocument (some fun _ _ => .ok code) = .ok assembly ∧
      assembly.code.toList.count '\n' < 2 ^ 32 - 1 :=
  exists_assembles plain scriptCompiled rfl (compileTemplate_eq_ok_iff.mp rfl) read
    (by rintro _ _ ⟨⟩; decide) few

/-- The script takes two lines and its options the third; the render function stands on lines four
and five. -/
theorem lines_assemble_twoPartDocument :
    ∃ assembly, plainTools.assemble twoPartDocument (some fun _ _ => .ok twoLineRender) = .ok assembly ∧
      ((Text.lines assembly.code).drop (assembly.render.first.toNat - 1)).take
        (assembly.render.stop.toNat - assembly.render.first.toNat) =
          ["var render", "var staticRenderFns"] ∧
      (Text.lines assembly.code)[assembly.render.stop.toNat - 1]? =
        some "__options__.render = render" := by
  obtain ⟨assembly, assembles, success, short⟩ :=
    exists_assembles_twoPartDocument twoLineRender rfl compileScript_twoPartDocument rfl
      (by decide +kernel)
  obtain ⟨script, render, compiled, found, _, _, covers⟩ := lines_assemble success rfl short
  cases compileTemplate_eq_ok_iff.mpr found |>.symm.trans
    (compileTemplate_eq_ok_iff.mpr assembles.renders)
  obtain ⟨_, block, attached⟩ := covers _ _ rfl
  exact ⟨assembly, success, block.trans blockLines_twoLineRender, attached⟩

end Toolchain

end SingleFile
