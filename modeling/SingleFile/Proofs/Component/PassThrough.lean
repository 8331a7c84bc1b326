import SingleFile.Proofs.Component.Separation

/-! # Scripts that are passed through

The text of a script is padded with as many line breaks as stand in front of it in the document, so
a compiler that leaves it as it is leaves it in its place: behind its first line and in front of its
last break, every line of the script has the same number and the same text in the module as in the
document, and the map leads it to itself. Only carriage returns at the ends of lines may differ,
since the module drops the break at the end of a script and may lose another one with it.
-/

namespace SingleFile

open ModuleText

theorem count_padding (startLine : UInt32) :
    (padding startLine).toList.count '\n' = startLine.toNat - 1 := by
  rw [padding, String.toList_ofList, List.count_replicate_self]

/-- A line of the document has the same number in the module, where its text is the same up to
carriage returns at the end and its only mapping leads to itself. -/
structure Assembly.KeepsLine (assembly : Assembly) (document : Document) (line : UInt32) : Prop where
  text : ∃ written original, (Text.lines assembly.code)[line.toNat - 1]? = some written ∧
    (Text.lines document.text)[line.toNat - 1]? = some original ∧
    Text.withoutReturns written = Text.withoutReturns original
  mapping : assembly.map.mappingsOnLine? line = some [.ofLines line line]

namespace Toolchain

variable {tools : Toolchain} {document : Document} {compiler : Option TemplateCompiler}
  {part : DocumentSection} {before text after : String}

/-- The script of a document stands in its text, on the line where its section says, and its compiler
leaves it as it is. -/
structure PassesThrough (tools : Toolchain) (document : Document) (part : DocumentSection)
    (before text after : String) : Prop where
  script : document.script = some part
  content : part.content = .inline text
  compiler : tools.registry.find? (tools.config.resolve part.language) = some passThrough
  text : document.text = before ++ text ++ after
  startLine : part.startLine.toNat = before.toList.count '\n' + 1

/-- A script that is passed through is its text behind the padding, without a map. -/
def paddedScript (part : DocumentSection) (text : String) : Script :=
  ⟨padding part.startLine ++ text, none, none⟩

namespace PassesThrough

theorem compileScript_eq (passes : tools.PassesThrough document part before text after) :
    tools.compileScript document = .ok (some (paddedScript part text)) := by
  simp only [Toolchain.compileScript, compile, load, compileText, passes.script, passes.content,
    passes.compiler, passThrough, ite_self]
  rfl

theorem count_code (passes : tools.PassesThrough document part before text after) :
    (paddedScript part text).code.toList.count '\n' =
      before.toList.count '\n' + text.toList.count '\n' := by
  rw [paddedScript, String.toList_append, List.count_append, count_padding, passes.startLine,
    Nat.add_sub_cancel]

/-- Behind its first line and in front of its last break, the text has its lines in the document and
in the compiled script alike. -/
theorem getElem?_lines_code (passes : tools.PassesThrough document part before text after) {step : Nat}
    (behind : 0 < step) (inFront : step < text.toList.count '\n') :
    (Text.lines (paddedScript part text).code)[before.toList.count '\n' + step]? =
      (Text.lines document.text)[before.toList.count '\n' + step]? := by
  have padded : (padding part.startLine).toList.count '\n' = before.toList.count '\n' := by
    rw [count_padding, passes.startLine, Nat.add_sub_cancel]
  have within : before.toList.count '\n' + step < (before ++ text).toList.count '\n' := by
    rw [String.toList_append, List.count_append]
    exact Nat.add_lt_add_left inFront _
  rw [passes.text, Text.getElem?_lines_append_left within, Text.getElem?_lines_append_right _ _ behind,
    paddedScript, ← padded, Text.getElem?_lines_append_right _ _ behind]

end PassesThrough

namespace Assembles

variable {render : Option (String × UInt32)} {assembly : Assembly}

/-- In front of the last break of a script, the module has its lines up to carriage returns, with or
without a comment behind the module. -/
theorem getElem?_bareLines {script : Script}
    (assembles : tools.Assembles document compiler (some script) render assembly) {index : Nat}
    (within : index < script.code.toList.count '\n') :
    (Text.bareLines assembly.code)[index]? = (Text.bareLines script.code)[index]? := by
  have represents := assembles.represents
  have inBlock : index < (blockLines script.code).length :=
    Nat.lt_of_lt_of_le within (Text.count_le_length_lines_strip script.code)
  have inFront : index < (scriptLines (some script)).length := by
    rw [scriptLines, List.length_append]
    exact Nat.lt_add_right _ inBlock
  rw [Text.bareLines, List.getElem?_map, assembles.written,
    represents.closed.lines_append represents.lines, List.append_assoc, List.append_assoc,
    List.getElem?_append_left inFront, scriptLines, List.getElem?_append_left inBlock,
    ← List.getElem?_map]
  exact Text.getElem?_bareLines_strip within

/-- Every line of a script without a map has the one mapping to itself. -/
theorem mappingsOnLine?_of_le {script : Script}
    (assembles : tools.Assembles document compiler (some script) render assembly)
    (unmapped : script.map = none) (short : assembly.code.toList.count '\n' < 2 ^ 32 - 1)
    {line : UInt32} (positive : 1 ≤ line) (within : line.toNat ≤ (Text.lines script.code).length) :
    assembly.map.mappingsOnLine? line = some [.ofLines line line] := by
  obtain ⟨code, _, external⟩ := script
  cases unmapped
  have counted : DocumentMap.ScriptIsCounted (some ⟨code, none, external⟩) := nofun
  have nonzero : line ≠ 0 := ne_zero_of_le (by decide) positive
  have covered := length_lines_le ⟨code, none, external⟩
  have bound := assembles.length_le
  dsimp only at covered within
  have count : (Text.lineCount code).toNat = (Text.lines code).length := by
    rw [Text.lineCount_eq_length, UInt32.toNat_ofNat', Nat.mod_eq_of_lt (by omega)]
  obtain ⟨first, _⟩ := assembles.toNat_range short
  obtain ⟨start, _⟩ := assembles.render_ordered short
  have inFront : line < assembly.render.first := by
    rw [UInt32.lt_iff_toNat_lt, first]
    omega
  obtain ⟨entries, read, onLine⟩ := DocumentMap.holdsOnLine_ofParts assembles.mapped start
  have holds := onLine counted line
  rw [if_neg fun inside => UInt32.not_lt.mpr inside.2.1 inFront, List.append_nil,
    DocumentMap.entriesOnLine_scriptEntries (by omega) read positive,
    if_pos (UInt32.le_iff_toNat_le.mpr (count ▸ within))] at holds
  exact holds.eq_singleton (Entry.mapping?_ofLines nonzero nonzero)

/-- Between its first line and its last break, a script that is passed through has its lines in the
module and in the document alike. -/
theorem exists_lines_alike
    (assembles : tools.Assembles document compiler (some (paddedScript part text)) render assembly)
    (passes : tools.PassesThrough document part before text after) {step : Nat} (behind : 0 < step)
    (inFront : step < text.toList.count '\n') :
    ∃ written original,
      (Text.lines assembly.code)[before.toList.count '\n' + step]? = some written ∧
      (Text.lines document.text)[before.toList.count '\n' + step]? = some original ∧
      Text.withoutReturns written = Text.withoutReturns original := by
  have within : before.toList.count '\n' + step < (paddedScript part text).code.toList.count '\n' := by
    rw [passes.count_code]
    exact Nat.add_lt_add_left inFront _
  have listed : before.toList.count '\n' + step < (Text.lines (paddedScript part text).code).length := by
    rw [Text.length_lines]
    exact Nat.lt_succ_of_lt within
  have found := List.getElem?_eq_getElem listed
  have bare := assembles.getElem?_bareLines within
  rw [Text.bareLines, Text.bareLines, List.getElem?_map, List.getElem?_map, found,
    Option.map_some] at bare
  obtain ⟨written, given, same⟩ := Option.map_eq_some_iff.mp bare
  exact ⟨written, _, given, (passes.getElem?_lines_code behind inFront).symm.trans found, same⟩

end Assembles

/-- A script that is passed through keeps its lines, except for the first, which the document shares
with what stands in front, and the one behind its last break. -/
theorem keepsLine_assemble {assembly : Assembly}
    (success : tools.assemble document compiler = .ok assembly)
    (short : assembly.code.toList.count '\n' < 2 ^ 32 - 1)
    (passes : tools.PassesThrough document part before text after) {step : Nat} (behind : 0 < step)
    (inFront : step < text.toList.count '\n') :
    ∃ line : UInt32, line.toNat = part.startLine.toNat + step ∧ assembly.KeepsLine document line := by
  obtain ⟨script, render, assembles⟩ := assemble_eq_ok_iff.mp success
  cases passes.compileScript_eq.symm.trans assembles.scriptCompiled
  have breaks := passes.count_code
  have start := passes.startLine
  have size := Text.length_lines (paddedScript part text).code
  have counted := length_lines_le (paddedScript part text)
  have bound := assembles.length_le
  have number : (UInt32.ofNat (part.startLine.toNat + step)).toNat = part.startLine.toNat + step :=
    UInt32.toNat_ofNat_of_lt' (by change _ < 2 ^ 32; omega)
  have index : part.startLine.toNat + step - 1 = before.toList.count '\n' + step := by omega
  refine ⟨UInt32.ofNat (part.startLine.toNat + step), number, ?text, ?mapping⟩
  case text =>
    rw [number, index]
    exact assembles.exists_lines_alike passes behind inFront
  case mapping =>
    apply assembles.mappingsOnLine?_of_le rfl short
    · rw [UInt32.le_iff_toNat_le, number]
      change 1 ≤ _
      omega
    · rw [number]
      omega

/-- A document whose script ends with a line that has a carriage return in front of its break. -/
def spacedDocument : Document where
  fileName := "/c/F.vue"
  text := "<!-- c -->\r\n<script>\nx\r\r\n</script>"
  template := none
  script := some ⟨.script, none, 2, .inline "\nx\r\r\n"⟩
  styles := []

/-- The third line has one carriage return fewer in the module and is led to itself. -/
theorem keepsLine_spacedDocument :
    ∃ assembly, plainTools.assemble spacedDocument none = .ok assembly ∧
      assembly.KeepsLine spacedDocument 3 := by
  have passes : plainTools.PassesThrough spacedDocument ⟨.script, none, 2, .inline "\nx\r\r\n"⟩
      "<!-- c -->\r\n<script>" "\nx\r\r\n" "</script>" :=
    ⟨rfl, rfl, by rfl, by decide +kernel, by decide +kernel⟩
  have renders : plainTools.Renders spacedDocument none none := .absent (.inl rfl)
  obtain ⟨assembly, _, success, short⟩ :=
    exists_assembles rfl passes.compileScript_eq rfl renders rfl nofun (by decide +kernel)
  obtain ⟨line, number, kept⟩ := keepsLine_assemble success short passes Nat.zero_lt_one (by decide)
  have third : line = 3 := UInt32.toNat_inj.mp number
  exact ⟨assembly, success, third ▸ kept⟩

end Toolchain

end SingleFile
