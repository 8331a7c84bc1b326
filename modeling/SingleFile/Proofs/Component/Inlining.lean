import SingleFile.Proofs.Component.Assembly
import SingleFile.Proofs.Component.Sections
import SingleFile.Proofs.Text.Base64

/-! # The comment that carries the map

Putting the map into the module is the last step of an assembly and cannot fail, so it changes no
result but the code. The code ends with a break, and the comment stands behind one more: it is a
single line below all others, and its payload is read back as the map.
-/

namespace SingleFile

/-- The comment that carries a map as base 64. -/
def mapComment (payload : String) : String :=
  "//# sourceMappingURL=" ++ ("data:application/json;charset=utf-8;base64," ++ payload)

/-- Two assemblies that differ in their code only: that of the second is that of the first, which ends
with an empty line, and one line more, a comment whose payload is read back as the map. -/
structure Assembly.InlinedAs (plain inlined : Assembly) : Prop where
  map : inlined.map = plain.map
  styles : inlined.styles = plain.styles
  render : inlined.render = plain.render
  endsEmpty : (Text.lines plain.code).getLast? = some ""
  comment : ∃ payload, inlined.code = plain.code ++ "\n" ++ mapComment payload ∧
    Text.Base64.IsFilled payload.toList ∧
    Text.Base64.decode? payload.toList = some plain.map.encode.toUTF8.data.toList ∧
    Text.lines inlined.code = Text.lines plain.code ++ [mapComment payload]

/-- A comment whose payload is base 64 is a single line. -/
theorem lines_mapComment {payload : String} (filled : Text.Base64.IsFilled payload.toList) :
    Text.lines (mapComment payload) = [mapComment payload] := by
  have chars : (mapComment payload).toList = "//# sourceMappingURL=".toList ++
      ("data:application/json;charset=utf-8;base64,".toList ++ payload.toList) :=
    String.toList_append.trans (congrArg _ String.toList_append)
  apply Text.lines_eq_singleton
  · rw [chars, List.mem_append, List.mem_append, not_or, not_or]
    exact ⟨by decide, by decide, filled.not_mem (by decide) (by decide)⟩
  · rw [chars, List.mem_append, List.mem_append, not_or, not_or]
    exact ⟨by decide, by decide, filled.not_mem (by decide) (by decide)⟩

theorem Assembly.codeWithMap_eq (plain : Assembly) :
    plain.codeWithMap = plain.code ++ "\n" ++
      mapComment (String.ofList (Text.Base64.encode plain.map.encode.toUTF8.data.toList)) := by
  have start : "\n//# sourceMappingURL=" = "\n" ++ "//# sourceMappingURL=" := rfl
  rw [codeWithMap, start, ← String.append_assoc, String.append_assoc]
  rfl

/-- The code and the comment behind it, if the last line of the code is empty. -/
theorem Assembly.inlinedAs_codeWithMap {plain : Assembly}
    (endsEmpty : (Text.lines plain.code).getLast? = some "") :
    plain.InlinedAs { plain with code := plain.codeWithMap } where
  map := rfl
  styles := rfl
  render := rfl
  endsEmpty := endsEmpty
  comment := by
    have filled := Text.Base64.isFilled_encode plain.map.encode.toUTF8.data.toList
    have read := Text.Base64.decode?_encode plain.map.encode.toUTF8.data.toList
    refine ⟨_, plain.codeWithMap_eq, ?_, ?_, ?_⟩
    · rwa [String.toList_ofList]
    · rwa [String.toList_ofList]
    · change Text.lines plain.codeWithMap = _
      rw [codeWithMap_eq, Text.lines_append_break, lines_mapComment (by rwa [String.toList_ofList])]

namespace Toolchain

/-- The same tools with or without the map in the module. -/
def inlining (tools : Toolchain) (inline : Bool) : Toolchain :=
  { tools with config := { tools.config with inlineSourceMap := inline } }

theorem workAlike_inlining (tools : Toolchain) (first second : Bool) :
    (tools.inlining first).WorkAlike (tools.inlining second) where
  resolve _ := rfl
  compiler _ := rfl
  files := rfl

/-- Whatever the map turns out to be, the code is put together before the comment. -/
private theorem bind_codeWithMap (step : Except MapError DocumentMap) (made : DocumentMap → Assembly) :
    (step.mapError CompileError.map >>= fun map =>
      pure { made map with code := (made map).codeWithMap }) =
        (step.mapError CompileError.map >>= fun map => pure (made map)).map fun assembly =>
          { assembly with code := assembly.codeWithMap } := by
  cases step with
  | error cause => rfl
  | ok map => rfl

/-- The comment is put behind an assembly that is complete without it. -/
theorem assemble_inlining (tools : Toolchain) (document : Document)
    (compiler : Option TemplateCompiler) :
    (tools.inlining true).assemble document compiler =
      ((tools.inlining false).assemble document compiler).map fun assembly =>
        { assembly with code := assembly.codeWithMap } := by
  have alike := tools.workAlike_inlining true false
  simp only [assemble, alike.compileScript, alike.compileStyles, alike.compileTemplate]
  cases (tools.inlining false).compileScript document with
  | error cause => rfl
  | ok script =>
    cases (tools.inlining false).compileStyles document with
    | error cause => rfl
    | ok styles =>
      cases (tools.inlining false).compileTemplate document compiler with
      | error cause => rfl
      | ok render =>
        cases render with
        | none => exact bind_codeWithMap _ _
        | some render => exact bind_codeWithMap _ _

/-- The last line of a module is empty. -/
theorem getLast?_lines_assemble {tools : Toolchain} {document : Document}
    {compiler : Option TemplateCompiler} {assembly : Assembly}
    (success : tools.assemble document compiler = .ok assembly)
    (plain : tools.config.inlineSourceMap = false) :
    (Text.lines assembly.code).getLast? = some "" := by
  obtain ⟨script, render, assembles⟩ := assemble_eq_ok_iff.mp success
  rw [assembles.code_eq plain, assembles.represents.lines, List.getLast?_concat]

/-- With the map in the module and without it, an assembly fails alike, or the module with the map is
the one without it and a comment behind it. -/
theorem inlinedAs_assemble (tools : Toolchain) (document : Document)
    (compiler : Option TemplateCompiler) :
    (∃ error, (tools.inlining false).assemble document compiler = .error error ∧
      (tools.inlining true).assemble document compiler = .error error) ∨
    ∃ plain inlined, (tools.inlining false).assemble document compiler = .ok plain ∧
      (tools.inlining true).assemble document compiler = .ok inlined ∧ plain.InlinedAs inlined := by
  rw [assemble_inlining]
  cases result : (tools.inlining false).assemble document compiler with
  | error error => exact .inl ⟨error, rfl, rfl⟩
  | ok plain =>
    exact .inr ⟨plain, _, rfl, rfl,
      Assembly.inlinedAs_codeWithMap (getLast?_lines_assemble result rfl)⟩

end Toolchain

end SingleFile
