import Mathlib.Data.List.Basic
import SingleFile.SourceMap.Builder
import SingleFile.Proofs.Except
import SingleFile.Proofs.SourceMap.StableOrder

/-! # What a built map says

A built map has one source, and its traces are the entries of the builder in stable order, each with
the one source and its own name. Adding a range of lines appends one entry for every line, or fails
at the first line that is zero on either side.
-/

namespace SingleFile

/-- What an entry says once its map is built. Without a target it stands at no original point. -/
def Entry.trace (source : Source) (entry : Entry) : Trace where
  generated := entry.generated
  cursor := (entry.target.map (·.point)).getD ⟨0, 0⟩
  origin := entry.target.map fun target => (source, target.name)
  isRange := false

@[simp] theorem Entry.entry_trace (source : Source) (entry : Entry) :
    (entry.trace source).entry = entry := by
  obtain ⟨generated, target⟩ := entry
  cases target <;> rfl

/-- The entry that leads a line to a line; both are counted from one. -/
def Entry.ofLines (generated original : UInt32) : Entry :=
  ⟨⟨generated - 1, 0⟩, some ⟨⟨original - 1, 0⟩, none⟩⟩

namespace SourceMap

/-- The number of a listed name leads back to the name. -/
theorem getElem?_idxOf_table {name : String} {used : List String} (member : name ∈ used) :
    (table used)[(table used).idxOf name]? = some name :=
  List.getElem?_idxOf (List.mem_eraseDups.mpr member)

end SourceMap

namespace MapBuilder

variable {builder result : MapBuilder}

/-- The one source of a built map. -/
def onlySource (builder : MapBuilder) : Source :=
  ⟨builder.source, builder.content⟩

def append (builder : MapBuilder) (entries : List Entry) : MapBuilder :=
  { builder with entries := builder.entries ++ entries.toArray }

theorem append_nil (builder : MapBuilder) : builder.append [] = builder := by
  simp only [append, Array.append_empty]

theorem append_append (builder : MapBuilder) (first second : List Entry) :
    (builder.append first).append second = builder.append (first ++ second) := by
  simp only [append, Array.append_assoc, List.append_toArray]

theorem rootedSources_build (builder : MapBuilder) :
    builder.build.rootedSources = [builder.onlySource] := rfl

theorem isStableSort_sorted (builder : MapBuilder) :
    IsStableSort Entry.generated builder.entries.toList builder.sorted :=
  isStableSort_mergeSort _ _

/-- Every name of an entry is in the table of its list. -/
theorem mem_nameTable {entries : List Entry} {entry : Entry} {target : Target} {name : String}
    (member : entry ∈ entries) (leads : entry.target = some target)
    (named : target.name = some name) :
    name ∈ entries.filterMap fun entry => entry.target.bind (·.name) :=
  List.mem_filterMap.mpr ⟨entry, member, by rw [leads, Option.bind_some, named]⟩

/-- A token refers to the tables by number, and looking its numbers up gives the entry back. -/
theorem trace_token {entries : List Entry} {entry : Entry} (member : entry ∈ entries)
    (source : Source) :
    SourceMap.trace [source] (nameTable entries) (token (nameTable entries) entry) =
      entry.trace source := by
  cases leads : entry.target with
  | none => simp only [SourceMap.trace, token, Entry.trace, leads, Option.map_none, Option.bind_none]
  | some target =>
    cases named : target.name with
    | none =>
      simp only [SourceMap.trace, token, Entry.trace, leads, named, Option.map_some, Option.map_none,
        Option.bind_some, Option.bind_none, List.getElem?_cons_zero]
    | some name =>
      have found := SourceMap.getElem?_idxOf_table (mem_nameTable member leads named)
      simp only [SourceMap.trace, token, Entry.trace, leads, named, Option.map_some,
        Option.bind_some, List.getElem?_cons_zero, nameTable, found]

/-- The traces of a built map are its sorted entries, each with the one source. -/
theorem traces_build (builder : MapBuilder) :
    builder.build.traces = builder.sorted.map (Entry.trace builder.onlySource) := by
  rw [SourceMap.traces, rootedSources_build, build, List.map_map]
  exact List.map_congr_left fun entry member => trace_token member builder.onlySource

/-- Adding the start of a line fails on a zero, and otherwise appends one entry. -/
theorem add_lineStart_eq_ok_iff {generated original : UInt32} :
    builder.add (.lineStart generated) (.lineStart original) none = .ok result ↔
      (generated ≠ 0 ∧ original ≠ 0) ∧ builder.append [Entry.ofLines generated original] = result := by
  by_cases first : generated = 0
  · simp [add, Position.toPoint?, Position.lineStart, first]
  · by_cases second : original = 0
    · simp [add, Position.toPoint?, Position.lineStart, first, second]
    · simp [add, Position.toPoint?, Position.lineStart, first, second, append, Entry.ofLines]

/-- The entries of `count` lines from `line` on. -/
def lineEntries (original : UInt32 → UInt32) (line : UInt32) (count : Nat) : List Entry :=
  (List.range count).map fun step =>
    Entry.ofLines (line + UInt32.ofNat step) (original (line + UInt32.ofNat step))

private theorem step_succ (line : UInt32) (step : Nat) :
    line + UInt32.ofNat (step + 1) = line + 1 + UInt32.ofNat step := by
  rw [Nat.add_comm, UInt32.ofNat_add, UInt32.add_assoc]
  rfl

private theorem lineEntries_succ (original : UInt32 → UInt32) (line : UInt32) (count : Nat) :
    lineEntries original line (count + 1) =
      Entry.ofLines line (original line) :: lineEntries original (line + 1) count := by
  simp only [lineEntries, List.range_succ_eq_map, List.map_cons, List.map_map, Function.comp_def,
    Nat.succ_eq_add_one, step_succ]
  congr 2 <;> simp

theorem addLines_eq_ok_iff {original : UInt32 → UInt32} {count : Nat} {line : UInt32} :
    addLines original count line builder = .ok result ↔
      (∀ step < count, line + UInt32.ofNat step ≠ 0 ∧ original (line + UInt32.ofNat step) ≠ 0) ∧
        builder.append (lineEntries original line count) = result := by
  induction count generalizing line builder with
  | zero => simp [addLines, lineEntries, append_nil]
  | succ count ih =>
    rw [addLines, Except.bind_eq_ok_iff]
    constructor
    · rintro ⟨middle, added, rest⟩
      obtain ⟨start, rfl⟩ := add_lineStart_eq_ok_iff.mp added
      obtain ⟨later, rfl⟩ := ih.mp rest
      refine ⟨?_, by rw [append_append, lineEntries_succ]; rfl⟩
      intro step below
      cases step with
      | zero => simpa using start
      | succ step => simpa only [step_succ] using later step (Nat.lt_of_succ_lt_succ below)
    · rintro ⟨nonzero, rfl⟩
      refine ⟨builder.append [Entry.ofLines line (original line)],
        add_lineStart_eq_ok_iff.mpr ⟨by simpa using nonzero 0 (Nat.succ_pos count), rfl⟩, ?_⟩
      refine ih.mpr ⟨fun step below => ?_, by rw [append_append, lineEntries_succ]; rfl⟩
      simpa only [step_succ] using nonzero (step + 1) (Nat.succ_lt_succ below)

end MapBuilder

end SingleFile
