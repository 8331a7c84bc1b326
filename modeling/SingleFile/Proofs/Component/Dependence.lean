import SingleFile.Proofs.Component.Separation
import SingleFile.Proofs.Text.BaseName

/-! # What the map of a module depends on

The map of a module is put together from the compiled script, the base name of the document, the
lines of the render function and the line its template starts on; the text of the document is only
embedded. Behind an external script not even the render function matters. So a document may be moved to
another directory, and two assemblies that agree on these have the same map, whatever else their
documents and tools are.
-/

namespace SingleFile

open ModuleText

namespace DocumentMap

variable {script : Option Script} {render render' : LineRange} {line line' : UInt32}

/-- The entries of a render function depend on where it starts, how many lines it takes and, if it
takes any, on the line of its template. -/
theorem renderEntries_congr (start : render.first = render'.first) (size : render.size = render'.size)
    (sameLine : 0 < render.size → line = line') :
    renderEntries script render line = renderEntries script render' line' := by
  simp only [LineRange.size] at size sameLine
  simp only [renderEntries, start, ← size]
  obtain empty | nonempty := Nat.eq_zero_or_pos (render.stop.toNat - render.first.toNat)
  · rw [← start, empty, List.range'_zero, List.map_nil, List.map_nil]
  · rw [sameLine nonempty]

theorem sources_ofParts {text fileName : String} {map : DocumentMap}
    (success : ofParts script text fileName render line = .ok map) :
    map.map.sources = [⟨Text.baseName fileName, some (embeddedText script text)⟩] := by
  obtain ⟨_, _, entries, _, rfl⟩ := ofParts_eq_ok_iff.mp success
  rfl

/-- Maps put together from the same entries are the same but for their sources. -/
theorem ofParts_congr {text text' fileName fileName' : String} {map map' : DocumentMap}
    (success : ofParts script text fileName render line = .ok map)
    (success' : ofParts script text' fileName' render' line' = .ok map')
    (same : renderEntries script render line = renderEntries script render' line') :
    map.map = { map'.map with sources := map.map.sources } := by
  obtain ⟨_, _, entries, read, rfl⟩ := ofParts_eq_ok_iff.mp success
  obtain ⟨_, _, entries', read', rfl⟩ := ofParts_eq_ok_iff.mp success'
  cases read.symm.trans read'
  rw [same]
  rfl

/-- A map is named after the base name of its document. -/
theorem ofParts_congr_baseName {fileName fileName' : String}
    (same : Text.baseName fileName = Text.baseName fileName') (script : Option Script) (text : String)
    (render : LineRange) (line : UInt32) :
    ofParts script text fileName render line = ofParts script text fileName' render line := by
  rw [ofParts, ofParts, same]

/-- The base name is the last component of a file name. With a directory in front of it the file name
keeps it, unless it has no component of its own; so every directory gives the same map, or the same
error. -/
theorem isBaseName_and_ofParts_eq (fileName : String) :
    (∀ name, Text.IsBaseName fileName name ↔ Text.baseName fileName = name) ∧
    Text.baseName (Text.baseName fileName) = Text.baseName fileName ∧
    (∀ (directory : String) {c : Char}, Text.isSeparator c = true →
      Text.baseName (directory ++ String.singleton c ++ fileName) =
        if Text.OnlySeparators fileName then Text.baseName directory else Text.baseName fileName) ∧
    (¬ Text.OnlySeparators fileName → ∀ {directory directory' : String}, Text.IsDirectory directory →
      Text.IsDirectory directory' → ∀ (script : Option Script) (text : String) (render : LineRange)
        (line : UInt32), ofParts script text (directory ++ fileName) render line =
          ofParts script text (directory' ++ fileName) render line) := by
  refine ⟨fun name => Text.isBaseName_iff, Text.baseName_baseName fileName, ?joined, ?moved⟩
  case joined =>
    intro directory c separates
    have outer := Text.isDirectory_append_separator directory separates
    split <;> rename_i named
    · have only : Text.OnlySeparators (String.singleton c ++ fileName) :=
        Text.onlySeparators_append_iff.mpr ⟨by simpa [Text.OnlySeparators] using separates, named⟩
      rw [String.append_assoc, Text.baseName_append_of_onlySeparators only]
    · exact Text.baseName_append_of_isDirectory outer named
  case moved =>
    intro named directory directory' outer outer'
    exact ofParts_congr_baseName ((Text.baseName_append_of_isDirectory outer named).trans
      (Text.baseName_append_of_isDirectory outer' named).symm)

/-- A document keeps its name and its map behind separators of both kinds. -/
theorem isBaseName_and_ofParts_eq_mixedSeparators :
    ¬ Text.OnlySeparators "F.vue/" ∧ Text.isSeparator '\\' = true ∧
      Text.IsDirectory "/a\\b/\\" ∧ Text.IsDirectory "" ∧
      Text.baseName ("/a\\b/" ++ String.singleton '\\' ++ "F.vue/") = "F.vue" ∧
      ∃ map, ofParts none "doc" ("" ++ "F.vue/") ⟨2, 4⟩ 6 = .ok map ∧
        ofParts none "doc" ("/a\\b/\\" ++ "F.vue/") ⟨2, 4⟩ 6 = .ok map := by
  have named : ¬ Text.OnlySeparators "F.vue/" := by decide
  have outer : Text.IsDirectory "/a\\b/\\" := by decide
  have here : Text.IsDirectory "" := by decide
  obtain ⟨_, _, joined, moved⟩ := isBaseName_and_ofParts_eq "F.vue/"
  have success : ofParts none "doc" ("" ++ "F.vue/") ⟨2, 4⟩ 6 = .ok _ :=
    ofParts_eq_ok_iff.mpr ⟨by simp [LinesFit], fun _ _ => by decide, [], rfl, rfl⟩
  refine ⟨named, rfl, outer, here, ?_, _, success, (moved named outer here none "doc" _ _).trans success⟩
  rw [joined "/a\\b/" rfl, if_neg named]
  decide +kernel

end DocumentMap

namespace Toolchain

variable {tools tools' : Toolchain} {document document' : Document}
  {compiler compiler' : Option TemplateCompiler} {assembly assembly' : Assembly}

/-- What a map keeps of two render functions is the same: neither document gets one, or they take
equally many lines of the module and their templates start on the same line. -/
inductive RendersAlike (document document' : Document) (compiler compiler' : Option TemplateCompiler)
    (assembly assembly' : Assembly) : Prop
  | absent (missing : document.template = none ∨ compiler = none)
      (missing' : document'.template = none ∨ compiler' = none) :
      RendersAlike document document' compiler compiler' assembly assembly'
  | sameLines (startLine : document.template.map (·.startLine) = document'.template.map (·.startLine))
      (size : assembly.render.size = assembly'.render.size) :
      RendersAlike document document' compiler compiler' assembly assembly'

theorem Renders.eq_none {render : Option (String × UInt32)}
    (renders : tools.Renders document compiler render)
    (missing : document.template = none ∨ compiler = none) : render = none := by
  cases renders with
  | absent _ => rfl
  | compiled template given _ _ =>
    obtain missing | missing := missing
    · cases template.symm.trans missing
    · cases given.symm.trans missing

namespace Assembles

variable {script : Option Script} {render render' : Option (String × UInt32)}

/-- Where a render function starts depends on the script alone. -/
theorem first_eq (assembles : tools.Assembles document compiler script render assembly)
    (assembles' : tools'.Assembles document' compiler' script render' assembly') :
    assembly.render.first = assembly'.render.first := by
  rw [assembles.range, assembles'.range, ofParts_range, ofParts_range]

theorem renderEntries_eq (assembles : tools.Assembles document compiler script render assembly)
    (assembles' : tools'.Assembles document' compiler' script render' assembly')
    (alike : RendersAlike document document' compiler compiler' assembly assembly') :
    DocumentMap.renderEntries script assembly.render ((render.map (·.2)).getD 1) =
      DocumentMap.renderEntries script assembly'.render ((render'.map (·.2)).getD 1) := by
  cases alike with
  | absent missing missing' =>
    rw [assembles.range, assembles'.range, assembles.renders.eq_none missing,
      assembles'.renders.eq_none missing']
  | sameLines startLine size =>
    refine DocumentMap.renderEntries_congr (assembles.first_eq assembles') size fun nonempty => ?_
    have nonempty' : 0 < assembly'.render.size := size ▸ nonempty
    obtain ⟨part, template, line⟩ :=
      assembles.template_line (UInt32.lt_iff_toNat_lt.mpr (Nat.lt_of_sub_pos nonempty))
    obtain ⟨part', template', line'⟩ :=
      assembles'.template_line (UInt32.lt_iff_toNat_lt.mpr (Nat.lt_of_sub_pos nonempty'))
    rw [template, template'] at startLine
    rw [line, line']
    exact Option.some.inj startLine

end Assembles

/-- Two assemblies from the same script under one base name. If the script is in the document and
the render functions are alike, the maps are the same but for the texts of the documents that their
sources embed. If it is in a file of its own, the maps are the same. -/
theorem map_assemble_congr (success : tools.assemble document compiler = .ok assembly)
    (success' : tools'.assemble document' compiler' = .ok assembly')
    (sameName : Text.baseName document.fileName = Text.baseName document'.fileName)
    (sameScript : tools.compileScript document = tools'.compileScript document') :
    ∃ script, tools.compileScript document = .ok script ∧
      (script.bind (·.external) = none →
        RendersAlike document document' compiler compiler' assembly assembly' →
          assembly.map.map.tokens = assembly'.map.map.tokens ∧
          assembly.map.map = { assembly'.map.map with sources := assembly.map.map.sources } ∧
          assembly.map.map.sources = [⟨Text.baseName document.fileName, some document.text⟩] ∧
          assembly'.map.map.sources = [⟨Text.baseName document.fileName, some document'.text⟩]) ∧
      (script.bind (·.external) ≠ none → assembly.map = assembly'.map) := by
  obtain ⟨script, render, assembles⟩ := assemble_eq_ok_iff.mp success
  obtain ⟨script', render', assembles'⟩ := assemble_eq_ok_iff.mp success'
  cases assembles.scriptCompiled.symm.trans (sameScript.trans assembles'.scriptCompiled)
  have sources := DocumentMap.sources_ofParts assembles.mapped
  have sources' := DocumentMap.sources_ofParts assembles'.mapped
  rw [← sameName] at sources'
  refine ⟨script, assembles.scriptCompiled, fun inside alike => ?inside, fun outside => ?outside⟩
  case inside =>
    have same := DocumentMap.ofParts_congr assembles.mapped assembles'.mapped
      (assembles.renderEntries_eq assembles' alike)
    simp only [DocumentMap.embeddedText, inside, Option.getD_none] at sources sources'
    exact ⟨by rw [same], same, sources, sources'⟩
  case outside =>
    obtain ⟨content, external⟩ := Option.ne_none_iff_exists'.mp outside
    have same := DocumentMap.ofParts_congr assembles.mapped assembles'.mapped
      ((DocumentMap.renderEntries_external external _ _).trans
        (DocumentMap.renderEntries_external external _ _).symm)
    simp only [DocumentMap.embeddedText, external, Option.getD_some] at sources sources'
    rw [sources, ← sources'] at same
    exact congrArg DocumentMap.mk same

/-- A document of the same name in another directory, with the same script. -/
def otherDocument : Document where
  fileName := "d\\F.vue"
  text := "<template><i/></template>"
  template := some ⟨.template, some "pug", 4, .inline "i"⟩
  script := twoPartDocument.script
  styles := [⟨.style, none, 9, .inline "b"⟩]

/-- Another render function of two lines. -/
def otherRender : String :=
  "let render\nlet staticRenderFns"

/-- The same script and templates on one line give the same tokens for two different documents. -/
theorem map_assemble_otherDocument :
    ∃ assembly assembly',
      plainTools.assemble twoPartDocument (some fun _ _ => .ok twoLineRender) = .ok assembly ∧
      plainTools.assemble otherDocument (some fun _ _ => .ok otherRender) = .ok assembly' ∧
      assembly.map.map.tokens = assembly'.map.map.tokens := by
  have scriptCompiled' : plainTools.compileScript otherDocument = .ok (some twoPartScript) := by
    decide +kernel
  have stylesCompiled' : plainTools.compileStyles otherDocument =
      .ok [⟨"\n\n\n\n\n\n\n\nb", none⟩] := by
    decide +kernel
  have renders' : plainTools.Renders otherDocument (some fun _ _ => .ok otherRender)
      (some (otherRender, 4)) :=
    compileTemplate_eq_ok_iff.mp rfl
  obtain ⟨assembly, assembles, success, short⟩ :=
    exists_assembles_twoPartDocument twoLineRender rfl compileScript_twoPartDocument rfl
      (by decide +kernel)
  obtain ⟨assembly', assembles', success', short'⟩ :=
    exists_assembles rfl scriptCompiled' stylesCompiled' renders' rfl (by rintro _ _ ⟨⟩; decide)
      (by decide +kernel)
  have otherLines : blockLines otherRender = ["let render", "let staticRenderFns"] := by cbv
  have size : assembly.render.size = assembly'.render.size := by
    rw [assembles.size_render short, assembles'.size_render short', Option.map_some, Option.map_some,
      blockLines_twoLineRender, otherLines]
    rfl
  obtain ⟨script, compiled, inside, _⟩ := map_assemble_congr success success' (by decide +kernel)
    (compileScript_twoPartDocument.trans scriptCompiled'.symm)
  cases compileScript_twoPartDocument.symm.trans compiled
  exact ⟨assembly, assembly', success, success', (inside rfl (.sameLines rfl size)).1⟩

end Toolchain

end SingleFile
