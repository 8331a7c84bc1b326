import SingleFile.Proofs.Component.Assembly
import SingleFile.Proofs.SourceMap.Faults

/-! # The first stage that fails

A component is compiled in four stages: its script, its styles, its template and the map. It is
refused with the failure of the first of them that fails, and no other way as long as the lines of
the module can be numbered. Styles can only fail: what else is in an assembly does not depend on
them.
-/

namespace SingleFile

open ModuleText

namespace Toolchain

variable {tools : Toolchain} {document : Document} {part : DocumentSection}
  {compiler : Option TemplateCompiler} {error : CompileError}

/-- The file of a section cannot be read. -/
inductive LoadFails (tools : Toolchain) (document : Document) (part : DocumentSection) :
    CompileError → Prop
  | externalSource {source : String} {cause : FileError} (outside : part.content = .external source)
      (unread : tools.files.read (Text.Path.join document.directory source) = .error cause) :
      LoadFails tools document part
        (.externalSource (Text.Path.join document.directory source) document.fileName cause)

/-- A section is refused: its file cannot be read, else its language has no compiler, else the
compiler reports a failure. -/
inductive SectionFails (tools : Toolchain) (document : Document) (part : DocumentSection) :
    CompileError → Prop
  | load {error : CompileError} (fails : tools.LoadFails document part error) :
      SectionFails tools document part error
  | unknownLanguage {source : SectionText} (loaded : tools.load document part = .ok source)
      (unknown : tools.registry.find? (tools.config.resolve part.language) = none) :
      SectionFails tools document part
        (.unknownLanguage (tools.config.resolve part.language) part.kind)
  | block {source : SectionText} {compile : BlockCompiler} {text : String}
      (loaded : tools.load document part = .ok source)
      (known : tools.registry.find? (tools.config.resolve part.language) = some compile)
      (failed : compile source.text document.fileName = .error text) :
      SectionFails tools document part (.block text)

/-- A template that has a compiler is refused: its file cannot be read, else the compiler reports a
failure. -/
inductive TemplateFails (tools : Toolchain) (document : Document)
    (compiler : Option TemplateCompiler) : CompileError → Prop
  | load {part : DocumentSection} {compile : TemplateCompiler} {error : CompileError}
      (template : document.template = some part) (given : compiler = some compile)
      (fails : tools.LoadFails document part error) : TemplateFails tools document compiler error
  | block {part : DocumentSection} {compile : TemplateCompiler} {source : SectionText} {text : String}
      (template : document.template = some part) (given : compiler = some compile)
      (loaded : tools.load document part = .ok source)
      (failed : compile source.text document.fileName = .error text) :
      TemplateFails tools document compiler (.block text)

/-- There is no map: the script's own map cannot be read, else a render function that is mapped has
its template on line zero. -/
inductive MapFails (script : Option Script) (render : Option (String × UInt32)) : MapError → Prop
  | malformed {fault : DecodeError} (unreadable : DocumentMap.MapUnreadable script fault) :
      MapFails script render (.malformed fault)
  | lineZero {code : String} (readable : ∀ fault, ¬ DocumentMap.MapUnreadable script fault)
      (rendered : render = some (code, 0)) (inside : script.bind (·.external) = none) :
      MapFails script render (.lineZero .original)

/-- The failure of the first stage that fails; the stages before it succeed. -/
inductive Fails (tools : Toolchain) (document : Document) (compiler : Option TemplateCompiler) :
    CompileError → Prop
  | script {part : DocumentSection} {error : CompileError} (given : document.script = some part)
      (fails : tools.SectionFails document part error) : Fails tools document compiler error
  | style {script : Option Script} {before after : List DocumentSection} {part : DocumentSection}
      {error : CompileError} (scriptCompiled : tools.compileScript document = .ok script)
      (styles : document.styles = before ++ part :: after)
      (earlier : ∀ style ∈ before, ∃ result, tools.compile document style = .ok result)
      (fails : tools.SectionFails document part error) : Fails tools document compiler error
  | template {script : Option Script} {styles : List CompiledBlock} {error : CompileError}
      (scriptCompiled : tools.compileScript document = .ok script)
      (stylesCompiled : tools.compileStyles document = .ok styles)
      (fails : tools.TemplateFails document compiler error) : Fails tools document compiler error
  | map {script : Option Script} {styles : List CompiledBlock} {render : Option (String × UInt32)}
      {cause : MapError} (scriptCompiled : tools.compileScript document = .ok script)
      (stylesCompiled : tools.compileStyles document = .ok styles)
      (renders : tools.Renders document compiler render) (fails : MapFails script render cause) :
      Fails tools document compiler (.map cause)

/-- If the first three stages succeed, the lines of the module they make can be numbered. -/
def ModuleFits (tools : Toolchain) (document : Document) (compiler : Option TemplateCompiler) : Prop :=
  ∀ script styles render, tools.compileScript document = .ok script →
    tools.compileStyles document = .ok styles → tools.Renders document compiler render →
    (ModuleText.ofParts script (render.map (·.1))).2.text.toList.count '\n' < 2 ^ 32 - 1

theorem load_eq_error_iff :
    tools.load document part = .error error ↔ tools.LoadFails document part error := by
  constructor
  · intro failure
    unfold load at failure
    cases content : part.content with
    | inline text => simp [content] at failure
    | external source =>
      simp only [content] at failure
      cases unread : tools.files.read (Text.Path.join document.directory source) with
      | ok text => simp [unread] at failure
      | error cause =>
        obtain rfl : .externalSource _ _ cause = error := by simpa [unread] using failure
        exact .externalSource content unread
  · intro fails
    cases fails with
    | externalSource outside unread => simp [load, outside, unread]

theorem compile_eq_error_iff :
    tools.compile document part = .error error ↔ tools.SectionFails document part error := by
  simp only [compile, Except.bind_eq_error_iff, load_eq_error_iff, Except.pure_ne_error, and_false,
    exists_false, or_false]
  constructor
  · rintro (fails | ⟨source, loaded, failure⟩)
    · exact .load fails
    · unfold compileText at failure
      cases known : tools.registry.find? (tools.config.resolve part.language) with
      | none =>
        obtain rfl : .unknownLanguage _ part.kind = error := by simpa [known] using failure
        exact .unknownLanguage loaded known
      | some compile =>
        cases failed : compile source.text document.fileName with
        | ok block => simp [known, failed] at failure
        | error text =>
          obtain rfl : .block text = error := by simpa [known, failed] using failure
          exact .block loaded known failed
  · intro fails
    cases fails with
    | load fails => exact .inl fails
    | unknownLanguage loaded unknown => exact .inr ⟨_, loaded, by simp [compileText, unknown]⟩
    | block loaded known failed => exact .inr ⟨_, loaded, by simp [compileText, known, failed]⟩

theorem compileScript_eq_error_iff : tools.compileScript document = .error error ↔
    ∃ part, document.script = some part ∧ tools.SectionFails document part error := by
  unfold compileScript
  cases document.script with
  | none => simp
  | some part =>
    simp only [Except.bind_eq_error_iff, compile_eq_error_iff, Except.pure_ne_error, and_false,
      exists_false, or_false, Option.some.injEq, exists_eq_left']

theorem compileStyles_eq_error_iff : tools.compileStyles document = .error error ↔
    ∃ before part after, document.styles = before ++ part :: after ∧
      (∀ style ∈ before, ∃ result, tools.compile document style = .ok result) ∧
      tools.SectionFails document part error := by
  have succeeds (style : DocumentSection) :
      (∃ block, (tools.compile document style).map (·.2) = .ok block) ↔
        ∃ result, tools.compile document style = .ok result := by
    simp only [Except.map_eq_ok_iff]
    exact ⟨fun ⟨_, result, compiled, _⟩ => ⟨result, compiled⟩,
      fun ⟨result, compiled⟩ => ⟨_, result, compiled, rfl⟩⟩
  simp only [compileStyles, Except.mapM_eq_error_iff, Except.map_eq_error_iff, compile_eq_error_iff,
    succeeds]

theorem compileTemplate_eq_error_iff : tools.compileTemplate document compiler = .error error ↔
    tools.TemplateFails document compiler error := by
  constructor
  · intro failure
    unfold compileTemplate at failure
    cases template : document.template with
    | none => simp [template] at failure
    | some part =>
      cases compiler with
      | none => simp [template] at failure
      | some compile =>
        simp only [template, sectionText, Except.bind_eq_error_iff, Except.map_eq_error_iff,
          Except.map_eq_ok_iff, Except.mapError_eq_error_iff, load_eq_error_iff, Except.pure_ne_error,
          and_false, exists_false, or_false] at failure
        rcases failure with fails | ⟨_, ⟨source, loaded, rfl⟩, text, failed, rfl⟩
        · exact .load template rfl fails
        · exact .block template rfl loaded failed
  · intro fails
    unfold compileTemplate
    cases fails with
    | load template given fails =>
      subst given
      simp only [template, sectionText, Except.bind_eq_error_iff, Except.map_eq_error_iff,
        load_eq_error_iff]
      exact .inl fails
    | block template given loaded failed =>
      subst given
      simp only [template, sectionText, Except.bind_eq_error_iff, Except.map_eq_error_iff,
        Except.map_eq_ok_iff, Except.mapError_eq_error_iff]
      exact .inr ⟨_, ⟨_, loaded, rfl⟩, .inl ⟨_, failed, rfl⟩⟩

/-- In a module that fits 32 bits nothing is wrong with the map but what is wrong with the script's
own map or with the line of the template. -/
theorem ofParts_eq_error_iff_mapFails {script : Option Script} {render : Option (String × UInt32)}
    {documentText fileName : String} {cause : MapError}
    (short : (ModuleText.ofParts script (render.map (·.1))).2.text.toList.count '\n' < 2 ^ 32 - 1) :
    DocumentMap.ofParts script documentText fileName (ModuleText.ofParts script (render.map (·.1))).1
        ((render.map (·.2)).getD 1) = .error cause ↔ MapFails script render cause := by
  have few : DocumentMap.LinesFit script := by
    rintro given member -
    obtain rfl : script = some given := member
    have counted := length_lines_le given
    rw [(represents_ofParts _ _).count_breaks, List.length_append, List.length_append] at short
    omega
  obtain ⟨first, stop⟩ := toNat_range_ofParts short
  have started : (ModuleText.ofParts script (render.map (·.1))).1.first ≠ 0 := by
    intro zero
    rw [zero] at first
    exact Nat.succ_ne_zero _ first.symm
  rw [DocumentMap.ofParts_eq_error_iff few]
  constructor
  · rintro (⟨fault, unreadable, rfl⟩ | ⟨readable, inside, nonempty, fault⟩)
    · exact .malformed unreadable
    · cases fault with
      | generated zero => exact absurd zero started
      | original _ zero =>
        rcases render with _ | ⟨code, line⟩
        · exact absurd zero (by decide)
        · obtain rfl : line = 0 := zero
          exact .lineZero readable rfl inside
  · intro fails
    cases fails with
    | malformed unreadable => exact .inl ⟨_, unreadable, rfl⟩
    | lineZero readable rendered inside =>
      subst rendered
      refine .inr ⟨readable, inside, ?_, .original started rfl⟩
      rw [first, stop]
      simp only [Option.map_some, Option.getD_some, blockLines, Text.length_lines]
      omega

/-- An assembly fails with the failure of its first stage that fails. -/
theorem assemble_eq_error_iff : tools.assemble document compiler = .error error ↔
    tools.compileScript document = .error error ∨
      ∃ script, tools.compileScript document = .ok script ∧
        (tools.compileStyles document = .error error ∨
          ∃ styles, tools.compileStyles document = .ok styles ∧
            (tools.compileTemplate document compiler = .error error ∨
              ∃ render, tools.compileTemplate document compiler = .ok render ∧
                ∃ cause, DocumentMap.ofParts script document.text document.fileName
                  (ModuleText.ofParts script (render.map (·.1))).1 ((render.map (·.2)).getD 1) =
                    .error cause ∧ .map cause = error)) := by
  have finished {inline : Bool} {first second : Assembly} :
      (if inline = true then pure first else pure second : Except CompileError Assembly) ≠
        .error error := by
    cases inline <;> exact Except.pure_ne_error
  rw [assemble]
  simp only [Except.bind_eq_error_iff]
  refine or_congr_right (exists_congr fun script => and_congr_right fun _ => or_congr_right
    (exists_congr fun styles => and_congr_right fun _ => or_congr_right
      (exists_congr fun render => and_congr_right fun _ => ?_)))
  rcases render with _ | ⟨code, line⟩
  all_goals
    simp only [pure_bind, Except.bind_eq_error_iff, Except.mapError_eq_error_iff, finished, and_false,
      exists_false, or_false]
    exact Iff.rfl

namespace Assembles

variable {script : Option Script} {render : Option (String × UInt32)} {assembly : Assembly}

/-- What an assembly is put together from does not depend on the styles. -/
theorem withoutStyles (assembles : tools.Assembles document compiler script render assembly) :
    tools.Assembles { document with styles := [] } compiler script render
      { assembly with styles := [] } where
  scriptCompiled := assembles.scriptCompiled
  stylesCompiled := rfl
  renders := by
    have compiled := compileTemplate_eq_ok_iff.mpr assembles.renders
    exact compileTemplate_eq_ok_iff.mp compiled
  range := assembles.range
  mapped := assembles.mapped
  written := assembles.written

/-- Every style is compiled, in the order of the document. -/
theorem compiledStyles (assembles : tools.Assembles document compiler script render assembly) :
    List.Forall₂ (fun part block => ∃ source, tools.compile document part = .ok (source, block))
      document.styles assembly.styles := by
  refine (Except.mapM_eq_ok_iff.mp assembles.stylesCompiled).imp fun part block given => ?_
  obtain ⟨⟨source, _⟩, compiled, rfl⟩ := Except.map_eq_ok_iff.mp given
  exact ⟨source, compiled⟩

end Assembles

theorem assemble_eq_error_iff_fails (fits : tools.ModuleFits document compiler) :
    tools.assemble document compiler = .error error ↔ tools.Fails document compiler error := by
  rw [assemble_eq_error_iff, compileScript_eq_error_iff, compileStyles_eq_error_iff,
    compileTemplate_eq_error_iff]
  constructor
  · rintro (⟨part, given, fails⟩ | ⟨script, scriptCompiled,
      ⟨before, part, after, styles, earlier, fails⟩ | ⟨styles, stylesCompiled,
        fails | ⟨render, compiled, cause, failed, rfl⟩⟩⟩)
    · exact .script given fails
    · exact .style scriptCompiled styles earlier fails
    · exact .template scriptCompiled stylesCompiled fails
    · have renders := compileTemplate_eq_ok_iff.mp compiled
      have short := fits script styles render scriptCompiled stylesCompiled renders
      exact .map scriptCompiled stylesCompiled renders
        ((ofParts_eq_error_iff_mapFails short).mp failed)
  · intro fails
    cases fails with
    | script given fails => exact .inl ⟨_, given, fails⟩
    | style scriptCompiled styles earlier fails =>
      exact .inr ⟨_, scriptCompiled, .inl ⟨_, _, _, styles, earlier, fails⟩⟩
    | template scriptCompiled stylesCompiled fails =>
      exact .inr ⟨_, scriptCompiled, .inr ⟨_, stylesCompiled, .inl fails⟩⟩
    | map scriptCompiled stylesCompiled renders fails =>
      have short := fits _ _ _ scriptCompiled stylesCompiled renders
      have compiled := compileTemplate_eq_ok_iff.mpr renders
      exact .inr ⟨_, scriptCompiled, .inr ⟨_, stylesCompiled, .inr ⟨_, compiled, _,
        (ofParts_eq_error_iff_mapFails short).mpr fails, rfl⟩⟩⟩

/-- A component is refused exactly with the failure of the first stage that fails. If no stage fails
there is an assembly, the styles are compiled each in its place, and without them the assembly is
the same but for the styles. -/
theorem assemble_fails_iff (fits : tools.ModuleFits document compiler) :
    (∀ error, tools.assemble document compiler = .error error ↔
      tools.Fails document compiler error) ∧
    ((∀ error, ¬ tools.Fails document compiler error) →
      ∃ assembly, tools.assemble document compiler = .ok assembly ∧
        tools.assemble { document with styles := [] } compiler = .ok { assembly with styles := [] } ∧
        List.Forall₂ (fun part block => ∃ source, tools.compile document part = .ok (source, block))
          document.styles assembly.styles) := by
  refine ⟨fun error => assemble_eq_error_iff_fails fits, fun succeeds => ?_⟩
  cases success : tools.assemble document compiler with
  | error error => exact absurd ((assemble_eq_error_iff_fails fits).mp success) (succeeds error)
  | ok assembly =>
    obtain ⟨script, render, assembles⟩ := assemble_eq_ok_iff.mp success
    exact ⟨assembly, rfl, assemble_eq_ok_iff.mpr ⟨script, render, assembles.withoutStyles⟩,
      assembles.compiledStyles⟩

/-- Tools whose script compiler hands over a map that cannot be read. -/
def unreadableTools : Toolchain :=
  { plainTools with registry := plainTools.registry.register "js" fun _ _ => .ok ⟨"x", some "\x7b"⟩ }

/-- A document whose template stands on line zero. -/
def lineZeroDocument : Document :=
  { twoPartDocument with
    template := some ⟨.template, none, 0, .inline "<b/>"⟩
    styles := [⟨.style, none, 3, .inline "b"⟩] }

/-- The map that cannot be read is reported in front of the template on line zero. -/
theorem assemble_fails_lineZeroDocument :
    unreadableTools.ModuleFits lineZeroDocument (some fun _ _ => .ok twoLineRender) ∧
      unreadableTools.assemble lineZeroDocument (some fun _ _ => .ok twoLineRender) =
        .error (.map (.malformed .badJson)) := by
  have scriptCompiled : unreadableTools.compileScript lineZeroDocument =
      .ok (some ⟨"x", some "\x7b", none⟩) := by decide +kernel
  have stylesCompiled : unreadableTools.compileStyles lineZeroDocument = .ok [⟨"\n\nb", none⟩] := by
    decide +kernel
  have renders : unreadableTools.Renders lineZeroDocument (some fun _ _ => .ok twoLineRender)
      (some (twoLineRender, 0)) :=
    compileTemplate_eq_ok_iff.mp rfl
  have unreadable : DocumentMap.MapUnreadable (some ⟨"x", some "\x7b", none⟩) .badJson :=
    ⟨_, _, rfl, rfl, by decide +kernel⟩
  have fits : unreadableTools.ModuleFits lineZeroDocument (some fun _ _ => .ok twoLineRender) := by
    intro script styles render compiled _ found
    cases scriptCompiled.symm.trans compiled
    cases (compileTemplate_eq_ok_iff.mpr renders).symm.trans (compileTemplate_eq_ok_iff.mpr found)
    exact Nat.lt_of_le_of_lt (count_ofParts_le _ _) (by decide +kernel)
  exact ⟨fits, ((assemble_fails_iff fits).1 _).mpr
    (.map scriptCompiled stylesCompiled renders (.malformed unreadable))⟩

end Toolchain

end SingleFile
