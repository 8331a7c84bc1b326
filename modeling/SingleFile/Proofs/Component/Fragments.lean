import SingleFile.Proofs.Component.ModuleText

/-! # A module written fragment by fragment

Every call to the writer of a module adds a fragment: a text as it is, or a block, whose final break
is not counted. Whatever is written in whatever order, the counter stays the number of lines of the
text so far. The ranges of the fragments lie one behind the other without a gap, and the lines of a
fragment stay in its range, since later fragments only replace the empty line at the end.
-/

namespace SingleFile

open Text

/-- What one call adds to a module. -/
inductive Fragment where
  | line (text : String)
  | block (text : String)
deriving DecidableEq

namespace Fragment

def lines : Fragment → List String
  | .line text => Text.lines text
  | .block text => blockLines text

/-- The number of lines of a fragment: one for each of its breaks, and one for what stands behind the
last break unless it is the empty end of a block. -/
def size : Fragment → Nat
  | .line text => text.toList.count '\n' + 1
  | .block text => text.toList.count '\n' + if text.toList.getLast? = some '\n' then 0 else 1

theorem length_lines (fragment : Fragment) : fragment.lines.length = fragment.size := by
  cases fragment with
  | line text => exact Text.length_lines text
  | block text =>
    have dropped := length_lines_strip text
    rw [Text.length_lines text] at dropped
    rw [lines, blockLines, size]
    split at dropped <;> rename_i final
    · rw [if_pos final]
      exact Nat.add_right_cancel dropped
    · rw [if_neg final]
      exact dropped

theorem size_pos (fragment : Fragment) : 0 < fragment.size := by
  rw [← length_lines]
  cases fragment with
  | line text => simp only [lines, Text.length_lines, Nat.succ_pos]
  | block text => simp only [lines, blockLines, Text.length_lines, Nat.succ_pos]

/-- A fragment stands in a range of a text: the lines of the range are those of the fragment. -/
structure StandsIn (fragment : Fragment) (text : String) (range : LineRange) : Prop where
  size : range.size = fragment.size
  lines : ((Text.lines text).drop (range.first.toNat - 1)).take range.size = fragment.lines

/-- A fragment stands in a range as long as the lines before the range. -/
theorem standsIn_of_lines {fragment : Fragment} {text : String} {range : LineRange}
    {before behind : List String} (whole : Text.lines text = before ++ fragment.lines ++ behind)
    (first : range.first.toNat = before.length + 1)
    (stop : range.stop.toNat = before.length + fragment.size + 1) : fragment.StandsIn text range := by
  have size : range.size = fragment.size := by
    rw [LineRange.size]
    omega
  refine ⟨size, ?_⟩
  rw [size, whole, first, Nat.add_sub_cancel, List.append_assoc, List.drop_left,
    ← fragment.length_lines, List.take_left]

end Fragment

/-- Ranges that lie one behind the other from a line up to another, none of them empty. -/
def Tiles : UInt32 → List LineRange → UInt32 → Prop
  | first, [], stop => first = stop
  | first, range :: rest, stop =>
    range.first = first ∧ range.first < range.stop ∧ Tiles range.stop rest stop

theorem Tiles.le {ranges : List LineRange} {first stop : UInt32} (tiles : Tiles first ranges stop) :
    first ≤ stop := by
  induction ranges generalizing first with
  | nil => exact UInt32.le_of_eq tiles
  | cons range rest ih =>
    obtain ⟨rfl, nonempty, behind⟩ := tiles
    exact UInt32.le_trans (UInt32.le_of_lt nonempty) (ih behind)

/-- The ranges cover the lines between both ends and no others. -/
theorem Tiles.covers {ranges : List LineRange} {first stop : UInt32}
    (tiles : Tiles first ranges stop) (line : UInt32) :
    first ≤ line ∧ line < stop ↔ ∃ range ∈ ranges, range.first ≤ line ∧ line < range.stop := by
  induction ranges generalizing first with
  | nil =>
    obtain rfl : first = stop := tiles
    simp only [List.not_mem_nil, false_and, exists_false, iff_false, not_and, UInt32.not_lt]
    exact id
  | cons range rest ih =>
    obtain ⟨rfl, nonempty, behind⟩ := tiles
    rw [List.exists_mem_cons_iff, ← ih behind]
    have last := behind.le
    simp only [UInt32.le_iff_toNat_le, UInt32.lt_iff_toNat_lt] at *
    omega

namespace ModuleText

/-- The counter of a module is the number of lines of its text, and the next fragment starts a line
of its own. -/
structure InStep (written : ModuleText) : Prop where
  line : written.line = lineCount written.text
  closed : IsClosed written.text

/-- Adds a fragment, and gives the lines from the current one before it to the current one after. -/
def write (written : ModuleText) : Fragment → LineRange × ModuleText
  | .line text => (⟨written.line, (written.addLine text).line⟩, written.addLine text)
  | .block text => written.addBlock text

theorem first_write (written : ModuleText) (fragment : Fragment) :
    (written.write fragment).1.first = written.line := by
  cases fragment <;> rfl

theorem stop_write (written : ModuleText) (fragment : Fragment) :
    (written.write fragment).1.stop = (written.write fragment).2.line := by
  cases fragment <;> rfl

/-- Adds fragments one after the other, and gives the range of each. -/
def writeAll (written : ModuleText) : List Fragment → List LineRange × ModuleText
  | [] => ([], written)
  | fragment :: rest =>
    let (range, after) := written.write fragment
    let (ranges, final) := after.writeAll rest
    (range :: ranges, final)

namespace Represents

variable {written : ModuleText} {body : List String}

theorem inStep (represents : written.Represents body) : written.InStep where
  line := by
    rw [represents.line, lineCount_eq_length, represents.lines, List.length_append]
    rfl
  closed := represents.closed

theorem write (represents : written.Represents body) (fragment : Fragment) :
    (written.write fragment).2.Represents (body ++ fragment.lines) := by
  cases fragment with
  | line text => exact represents.addLine text
  | block text => exact represents.addBlock text

/-- A fragment gets the lines behind those written so far, as many as it has. -/
theorem write_range (represents : written.Represents body) (fragment : Fragment) :
    (written.write fragment).1 = ⟨UInt32.ofNat (body.length + 1),
      UInt32.ofNat (body.length + fragment.size + 1)⟩ := by
  rw [← fragment.length_lines]
  cases fragment with
  | line text =>
    have after := (represents.addLine text).line
    rw [List.length_append] at after
    rw [ModuleText.write, LineRange.mk.injEq]
    exact ⟨represents.line, after⟩
  | block text => exact represents.addBlock_range text

theorem writeAll (represents : written.Represents body) (fragments : List Fragment) :
    (written.writeAll fragments).2.Represents (body ++ fragments.flatMap Fragment.lines) := by
  induction fragments generalizing written body with
  | nil =>
    rw [List.flatMap_nil, List.append_nil]
    exact represents
  | cons fragment rest ih =>
    rw [List.flatMap_cons, ← List.append_assoc]
    exact ih (represents.write fragment)

/-- Where the lines up to its end fit 32 bits, a fragment gets those behind the lines before it. -/
theorem toNat_write_range (represents : written.Represents body) (fragment : Fragment)
    (fits : body.length + fragment.size + 1 < 2 ^ 32) :
    (written.write fragment).1.first.toNat = body.length + 1 ∧
      (written.write fragment).1.stop.toNat = body.length + fragment.size + 1 := by
  rw [represents.write_range fragment]
  simp only [UInt32.toNat_ofNat']
  exact ⟨Nat.mod_eq_of_lt (by omega), Nat.mod_eq_of_lt fits⟩

/-- The ranges of fragments lead from the current line before them to the current line after. -/
theorem tiles_writeAll (represents : written.Represents body) (fragments : List Fragment)
    (fits : (body ++ fragments.flatMap Fragment.lines).length + 1 < 2 ^ 32) :
    Tiles written.line (written.writeAll fragments).1 (written.writeAll fragments).2.line := by
  induction fragments generalizing written body with
  | nil => rfl
  | cons fragment rest ih =>
    rw [List.flatMap_cons, ← List.append_assoc] at fits
    have tail := ih (represents.write fragment) fits
    simp only [List.length_append, fragment.length_lines] at fits
    obtain ⟨first, stop⟩ := represents.toNat_write_range fragment (by omega)
    have nonempty : (written.write fragment).1.first < (written.write fragment).1.stop := by
      have positive := fragment.size_pos
      rw [UInt32.lt_iff_toNat_lt, first, stop]
      omega
    rw [← written.stop_write] at tail
    exact ⟨written.first_write fragment, nonempty, tail⟩

/-- Every fragment stands in its range of a text that holds the lines of all fragments behind those
written before. -/
theorem standsIn_writeAll (represents : written.Represents body) {fragments : List Fragment}
    (fits : (body ++ fragments.flatMap Fragment.lines).length + 1 < 2 ^ 32) {text : String}
    {behind : List String}
    (whole : Text.lines text = body ++ fragments.flatMap Fragment.lines ++ behind) :
    List.Forall₂ (fun fragment range => fragment.StandsIn text range) fragments
      (written.writeAll fragments).1 := by
  induction fragments generalizing written body with
  | nil => exact .nil
  | cons fragment rest ih =>
    rw [List.flatMap_cons, ← List.append_assoc] at fits whole
    refine .cons ?_ (ih (represents.write fragment) fits whole)
    rw [List.append_assoc (body ++ _)] at whole
    simp only [List.length_append, fragment.length_lines] at fits
    obtain ⟨first, stop⟩ := represents.toNat_write_range fragment (by omega)
    exact Fragment.standsIn_of_lines whole first stop

end Represents

/-- Whatever fragments a module is written from, its counter never drifts from its text. The ranges of
the fragments tile the module from its first line to its current one, and the lines of every fragment
stay in its range up to the end. -/
theorem inStep_writeAll {fragments : List Fragment} {ranges : List LineRange} {final : ModuleText}
    (written : empty.writeAll fragments = (ranges, final))
    (short : final.text.toList.count '\n' < 2 ^ 32 - 1) :
    (∀ before, before <+: fragments → (empty.writeAll before).2.InStep) ∧
      Tiles 1 ranges final.line ∧
      (∀ line, 1 ≤ line ∧ line < final.line ↔
        ∃ range ∈ ranges, range.first ≤ line ∧ line < range.stop) ∧
      List.Forall₂ (fun fragment range => fragment.StandsIn final.text range) fragments ranges := by
  have represents := represents_empty.writeAll fragments
  rw [written] at represents
  have fits := represents.count_breaks ▸ short
  have tiles := represents_empty.tiles_writeAll fragments (by omega)
  rw [written] at tiles
  have stands := represents_empty.standsIn_writeAll (by omega) represents.lines
  rw [written] at stands
  exact ⟨fun before _ => (represents_empty.writeAll before).inStep, tiles, tiles.covers, stands⟩

/-- A block with carriage returns, an empty one, one that is only a break, and a line with a carriage
return of its own. -/
def mixedFragments : List Fragment :=
  [.block "a\r\nb\r\n", .block "", .block "\n", .line "c\r", .block "\r\n\n"]

/-- The last block has two breaks and two lines, since its final break is not counted and the carriage
return before the other is dropped. -/
theorem inStep_writeAll_mixedFragments :
    (empty.writeAll mixedFragments).2.text.toList.count '\n' < 2 ^ 32 - 1 ∧
      (empty.writeAll mixedFragments).1 = [⟨1, 3⟩, ⟨3, 4⟩, ⟨4, 5⟩, ⟨5, 6⟩, ⟨6, 8⟩] ∧
      Fragment.StandsIn (.block "\r\n\n") (empty.writeAll mixedFragments).2.text ⟨6, 8⟩ := by
  have short : (empty.writeAll mixedFragments).2.text.toList.count '\n' < 2 ^ 32 - 1 := by
    decide +kernel
  have ranges : (empty.writeAll mixedFragments).1 = [⟨1, 3⟩, ⟨3, 4⟩, ⟨4, 5⟩, ⟨5, 6⟩, ⟨6, 8⟩] := by
    decide +kernel
  have stands := (inStep_writeAll rfl short).2.2.2
  rw [ranges] at stands
  simp only [mixedFragments, List.forall₂_cons] at stands
  exact ⟨short, ranges, stands.2.2.2.2.1⟩

end ModuleText

end SingleFile
