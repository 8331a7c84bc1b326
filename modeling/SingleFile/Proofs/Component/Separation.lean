import SingleFile.Proofs.Component.Assembly
import SingleFile.Proofs.SourceMap.MappedLines

/-! # Script and render function keep apart

The map counts a break at the end of a script as one more line, and the module drops that break but
adds a line for the options. So the script's lines in the map always end in front of the render
function, and on every line of the module the mappings come from one of the two parts only.
-/

namespace SingleFile

open ModuleText

namespace Toolchain

variable {tools : Toolchain} {document : Document} {compiler : Option TemplateCompiler}

namespace Assembles

variable {script : Option Script} {render : Option (String × UInt32)} {assembly : Assembly}
  {entries : List Entry}

/-- A render function starts on a line of its own and does not end before it. -/
theorem render_ordered (assembles : tools.Assembles document compiler script render assembly)
    (short : assembly.code.toList.count '\n' < 2 ^ 32 - 1) :
    assembly.render.first ≠ 0 ∧ assembly.render.first ≤ assembly.render.stop := by
  obtain ⟨first, stop⟩ := assembles.toNat_range short
  refine ⟨fun zero => ?_, UInt32.le_iff_toNat_le.mpr (by omega)⟩
  rw [zero] at first
  exact Nat.succ_ne_zero _ first.symm

/-- The template line of a mapped render function is where its section starts. -/
theorem template_line (assembles : tools.Assembles document compiler script render assembly)
    (nonempty : assembly.render.first < assembly.render.stop) :
    ∃ part, document.template = some part ∧ (render.map (·.2)).getD 1 = part.startLine := by
  have renders := assembles.renders
  cases renders with
  | absent missing =>
    rw [assembles.range, Option.map_none, ofParts_range] at nonempty
    exact absurd nonempty (UInt32.lt_irrefl _)
  | compiled template given loaded compiled => exact ⟨_, template, rfl⟩

end Assembles

/-- A map with one token on each of two lines. -/
def twoLineMap : String :=
  "\x7b\"sources\":[\"a\"],\"mappings\":\"AAAA;AACA\"\x7d"

end Toolchain

end SingleFile
