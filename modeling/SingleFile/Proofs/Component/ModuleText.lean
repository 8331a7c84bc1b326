import SingleFile.Component.Assembly
import SingleFile.Proofs.Text.Lines

/-! # The lines of a written module

A module text represents the lines written so far, with an empty line behind them. Every fragment
adds its own lines, and the counter stays one ahead of the number of lines. The lines of a whole
module follow fragment by fragment; only the number of lines of a module that fits 32 bits is read
off the counter.
-/

namespace SingleFile

open Text

/-- The lines of a fragment less one break at its end. -/
def blockLines (code : String) : List String :=
  lines (strip code)

namespace ModuleText

/-- The lines written before the current one, which is empty, and the number of the current one. -/
structure Represents (written : ModuleText) (body : List String) : Prop where
  closed : IsClosed written.text
  lines : lines written.text = body ++ [""]
  line : written.line = UInt32.ofNat (body.length + 1)

theorem represents_empty : empty.Represents [] :=
  ⟨.inl rfl, rfl, rfl⟩

namespace Represents

variable {written : ModuleText} {body : List String}

/-- A fragment of several lines adds each of them and moves the counter behind them. -/
theorem addLine (represents : written.Represents body) (text : String) :
    (written.addLine text).Represents (body ++ Text.lines text) where
  closed := .inr ⟨written.text ++ text, rfl⟩
  lines := by
    have split := lines_append_break (written.text ++ text) ""
    rw [String.append_empty, lines_empty] at split
    rw [ModuleText.addLine, split, represents.closed.lines_append represents.lines]
  line := by
    rw [ModuleText.addLine, represents.line, lineCount_eq_length, ← UInt32.ofNat_add,
      List.length_append]
    exact congrArg UInt32.ofNat (Nat.add_right_comm body.length 1 _)

theorem addBlock (represents : written.Represents body) (text : String) :
    (written.addBlock text).2.Represents (body ++ blockLines text) := by
  rw [blockLines, ← withoutFinalBreak_eq_strip]
  exact represents.addLine _

/-- A block covers the lines from the one before the call to the one after it. -/
theorem addBlock_range (represents : written.Represents body) (text : String) :
    (written.addBlock text).1 = ⟨UInt32.ofNat (body.length + 1),
      UInt32.ofNat (body.length + (blockLines text).length + 1)⟩ := by
  have after := (represents.addBlock text).line
  rw [List.length_append] at after
  rw [ModuleText.addBlock, LineRange.mk.injEq]
  exact ⟨represents.line, after⟩

/-- A written text has as many breaks as lines before its current one. -/
theorem count_breaks (represents : written.Represents body) :
    written.text.toList.count '\n' = body.length := by
  have count := length_lines written.text
  rw [represents.lines, List.length_append, List.length_singleton] at count
  omega

end Represents

/-- The lines that stand in front of a render function. -/
def scriptLines : Option Script → List String
  | some script => blockLines script.code ++
      ["var __options__ = typeof exports.default === 'function' ? exports.default.options : exports.default"]
  | none => ["var __options__ = \x7b\x7d"]

/-- A script has at most the lines in front of its render function: the options line makes up for a
final break that is dropped. -/
theorem length_lines_le (script : Script) :
    (Text.lines script.code).length ≤ (scriptLines (some script)).length := by
  have dropped := length_lines_strip script.code
  rw [scriptLines, List.length_append, List.length_singleton, blockLines]
  split at dropped <;> omega

/-- The lines that attach a render function to the options. -/
def attachLines : List String :=
  ["__options__.render = render", "__options__.staticRenderFns = staticRenderFns"]

/-- The lines of a render function and of what attaches it. -/
def renderLines : Option String → List String
  | some code => blockLines code ++ attachLines
  | none => []

/-- The line that exports the options where no script does. -/
def exportLines : Option Script → List String
  | some _ => []
  | none => ["exports.default = __options__"]

/-- The text of a module and the lines of its render function, from the script and from the code of
the render function. -/
def ofParts (script : Option Script) (render : Option String) : LineRange × ModuleText :=
  let start := ofScript script
  match render with
  | none => (⟨start.line, start.line⟩, start.finish script)
  | some code => ((start.addRender code).1, (start.addRender code).2.finish script)

theorem represents_ofScript (script : Option Script) :
    (ofScript script).Represents (scriptLines script) := by
  cases script with
  | none =>
    have options : Text.lines emptyOptions = ["var __options__ = \x7b\x7d"] := by cbv
    have written := represents_empty.addLine emptyOptions
    rwa [options] at written
  | some script =>
    have options : Text.lines exportedOptions =
      ["var __options__ = typeof exports.default === 'function' ? exports.default.options : exports.default"] := by
      cbv
    have written := (represents_empty.addBlock script.code).addLine exportedOptions
    rwa [options, List.nil_append] at written

theorem represents_addRender {written : ModuleText} {body : List String}
    (represents : written.Represents body) (code : String) :
    (written.addRender code).2.Represents (body ++ renderLines (some code)) := by
  have render : Text.lines "__options__.render = render" = ["__options__.render = render"] := by cbv
  have static : Text.lines "__options__.staticRenderFns = staticRenderFns" =
      ["__options__.staticRenderFns = staticRenderFns"] := by cbv
  have attached := ((represents.addBlock code).addLine "__options__.render = render").addLine
    "__options__.staticRenderFns = staticRenderFns"
  rw [render, static, List.append_assoc, List.append_assoc] at attached
  exact attached

theorem represents_finish {written : ModuleText} {body : List String}
    (represents : written.Represents body) (script : Option Script) :
    (written.finish script).Represents (body ++ exportLines script) := by
  cases script with
  | none =>
    have exported : Text.lines "exports.default = __options__" =
      ["exports.default = __options__"] := by cbv
    have written := represents.addLine "exports.default = __options__"
    rwa [exported] at written
  | some script =>
    rw [exportLines, List.append_nil]
    exact represents

/-- The lines of a whole module in their order. -/
theorem represents_ofParts (script : Option Script) (render : Option String) :
    (ofParts script render).2.Represents
      (scriptLines script ++ renderLines render ++ exportLines script) := by
  cases render with
  | none =>
    rw [renderLines, List.append_nil]
    exact represents_finish (represents_ofScript script) script
  | some code => exact represents_finish (represents_addRender (represents_ofScript script) code) script

theorem length_blockLines_le (code : String) :
    (blockLines code).length ≤ code.toList.count '\n' + 1 := by
  have dropped := length_lines_strip code
  rw [length_lines code] at dropped
  exact Nat.le_of_add_right_le (Nat.le_of_eq dropped)

/-- A module has few breaks more than its script and render function. -/
theorem count_ofParts_le (script : Option Script) (render : Option String) :
    (ofParts script render).2.text.toList.count '\n' ≤
      ((script.map (·.code)).getD "").toList.count '\n' + (render.getD "").toList.count '\n' + 5 := by
  have inScript : (scriptLines script).length + (exportLines script).length ≤
      ((script.map (·.code)).getD "").toList.count '\n' + 2 := by
    cases script with
    | none =>
      simp only [scriptLines, exportLines, List.length_singleton]
      exact Nat.le_add_left _ _
    | some script =>
      have block := length_blockLines_le script.code
      simp only [scriptLines, exportLines, List.length_append, List.length_singleton, List.length_nil,
        Option.map_some, Option.getD_some]
      omega
  have inRender : (renderLines render).length ≤ (render.getD "").toList.count '\n' + 3 := by
    cases render with
    | none => exact Nat.zero_le _
    | some code =>
      have block := length_blockLines_le code
      simp only [renderLines, attachLines, List.length_append, List.length_cons, List.length_nil,
        Option.getD_some]
      omega
  rw [(represents_ofParts script render).count_breaks, List.length_append, List.length_append]
  omega

/-- The render function starts behind the options, and ends before it is attached. -/
theorem ofParts_range (script : Option Script) (render : Option String) :
    (ofParts script render).1 = ⟨UInt32.ofNat ((scriptLines script).length + 1),
      UInt32.ofNat ((scriptLines script).length +
        (render.map fun code => (blockLines code).length).getD 0 + 1)⟩ := by
  cases render with
  | none => rw [ofParts, (represents_ofScript script).line]; rfl
  | some code =>
    rw [Option.map_some, Option.getD_some]
    exact (represents_ofScript script).addBlock_range code

/-- In a module that fits 32 bits, the range holds the very lines of the render function. -/
theorem toNat_range_ofParts {script : Option Script} {render : Option String}
    (short : (ofParts script render).2.text.toList.count '\n' < 2 ^ 32 - 1) :
    (ofParts script render).1.first.toNat = (scriptLines script).length + 1 ∧
      (ofParts script render).1.stop.toNat = (scriptLines script).length +
        (render.map fun code => (blockLines code).length).getD 0 + 1 := by
  have block : (render.map fun code => (blockLines code).length).getD 0 ≤ (renderLines render).length := by
    cases render with
    | none => exact Nat.zero_le _
    | some code =>
      simp only [Option.map_some, Option.getD_some, renderLines, List.length_append]
      omega
  rw [(represents_ofParts script render).count_breaks] at short
  simp only [List.length_append] at short
  rw [ofParts_range]
  simp only [UInt32.toNat_ofNat']
  exact ⟨Nat.mod_eq_of_lt (by omega), Nat.mod_eq_of_lt (by omega)⟩

end ModuleText

end SingleFile
