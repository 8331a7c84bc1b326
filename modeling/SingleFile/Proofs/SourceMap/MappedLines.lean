import SingleFile.Proofs.SourceMap.ExactPositions

/-! # The mappings on a line

The mappings of a built map are its sorted entries as seen from outside, so those on one line are
the sorted entries of that line. A range of lines has one entry on each of its lines and none on any
other; both parts of a document's map are such ranges, unless the script brings its own map. All this
is about maps whose lines can be counted from one; of any other the mappings cannot be listed.
-/

namespace SingleFile

/-- An entry as seen from outside, where it is the same whatever its source. -/
def Entry.mapping? (entry : Entry) : Option Mapping := do
  let generated ← entry.generated.toPosition?
  match entry.target with
  | none => return ⟨generated, none, none⟩
  | some target => return ⟨generated, some (← target.point.toPosition?), target.name⟩

theorem Entry.mapping?_trace (source : Source) (entry : Entry) :
    (entry.trace source).mapping? = entry.mapping? := by
  obtain ⟨generated, _ | target⟩ := entry <;> rfl

theorem Entry.mapping?_eq_none_iff {entry : Entry} : entry.mapping? = none ↔ ¬ entry.IsCounted := by
  rw [← mapping?_trace ⟨"", none⟩, Trace.mapping?_eq_none_iff, isCounted_trace]

theorem Entry.toPosition?_of_mapping? {entry : Entry} {mapping : Mapping}
    (seen : entry.mapping? = some mapping) :
    entry.generated.toPosition? = some mapping.generated := by
  rw [← mapping?_trace ⟨"", none⟩] at seen
  exact Trace.toPosition?_of_mapping? seen

/-- A line led to a line, as seen from outside. -/
def Mapping.ofLines (generated original : UInt32) : Mapping :=
  ⟨.lineStart generated, some (.lineStart original), none⟩

theorem ne_zero_of_le {first line : UInt32} (start : first ≠ 0) (behind : first ≤ line) : line ≠ 0 := by
  rintro rfl
  exact start (UInt32.le_antisymm behind UInt32.zero_le)

theorem Point.toPosition?_sub_one {line : UInt32} (nonzero : line ≠ 0) :
    (Point.mk (line - 1) 0).toPosition? = some (.lineStart line) :=
  toPosition?_eq_some_iff.mpr ⟨(toNat_sub_one nonzero).symm, rfl⟩

theorem Entry.mapping?_ofLines {generated original : UInt32} (first : generated ≠ 0)
    (second : original ≠ 0) :
    (Entry.ofLines generated original).mapping? = some (.ofLines generated original) := by
  simp only [mapping?, ofLines, Point.toPosition?_sub_one first, Point.toPosition?_sub_one second,
    Option.bind_eq_bind, Option.bind_some]
  rfl

/-- The entries of a line, counted from one. -/
def entriesOnLine (entries : List Entry) (line : UInt32) : List Entry :=
  entries.filter fun entry => entry.generated.line.toNat + 1 = line.toNat

theorem entriesOnLine_append (first second : List Entry) (line : UInt32) :
    entriesOnLine (first ++ second) line = entriesOnLine first line ++ entriesOnLine second line :=
  List.filter_append _ _

/-- The mappings on a line are the given entries in stable order. -/
def DocumentMap.HoldsOnLine (map : DocumentMap) (line : UInt32) (given : List Entry) : Prop :=
  ∃ sorted mappings, IsStableSort Entry.generated given sorted ∧
    sorted.mapM Entry.mapping? = some mappings ∧ map.mappingsOnLine? line = some mappings

theorem DocumentMap.HoldsOnLine.eq_singleton {map : DocumentMap} {line : UInt32} {entry : Entry}
    {mapping : Mapping} (holds : map.HoldsOnLine line [entry]) (given : entry.mapping? = some mapping) :
    map.mappingsOnLine? line = some [mapping] := by
  obtain ⟨sorted, mappings, sort, seen, onLine⟩ := holds
  rw [List.perm_singleton.mp sort.perm] at seen
  rw [onLine, ← seen, List.mapM_cons, given]
  rfl

namespace MapBuilder

/-- A range of lines whose numbers fit 32 bits has one entry on each of its lines. -/
theorem entriesOnLine_lineEntries {line : UInt32} {count : Nat} (start : line ≠ 0)
    (fits : line.toNat + count ≤ 2 ^ 32) (original : UInt32 → UInt32) (target : UInt32) :
    entriesOnLine (lineEntries original line count) target =
      if line ≤ target ∧ target.toNat < line.toNat + count then
        [Entry.ofLines target (original target)] else [] := by
  have distance : (target - line).toNat < count ↔
      line ≤ target ∧ target.toNat < line.toNat + count := by
    rw [UInt32.toNat_sub, UInt32.le_iff_toNat_le]
    have := target.toNat_lt
    omega
  have onLine : ∀ step ∈ List.range count,
      decide ((line + UInt32.ofNat step - 1).toNat + 1 = target.toNat) =
        decide (step = (target - line).toNat) := by
    intro step member
    have below := List.mem_range.mp member
    have positive : line.toNat ≠ 0 := fun zero => start (UInt32.toNat_inj.mp zero)
    have bound := target.toNat_lt
    have sum : (line + UInt32.ofNat step).toNat = line.toNat + step := by
      rw [UInt32.toNat_add, UInt32.toNat_ofNat']
      omega
    have nonzero : line + UInt32.ofNat step ≠ 0 := by
      rw [ne_eq, ← UInt32.toNat_inj, sum]
      exact fun zero => positive (Nat.add_eq_zero_iff.mp zero).1
    rw [decide_eq_decide, toNat_sub_one nonzero, sum, UInt32.toNat_sub]
    omega
  simp only [entriesOnLine, lineEntries, List.filter_map, Function.comp_def]
  change ((List.range count).filter fun step =>
    (line + UInt32.ofNat step - 1).toNat + 1 = target.toNat).map _ = _
  rw [List.filter_congr onLine, List.filter_eq, List.count_range]
  simp only [distance]
  split
  · rw [List.replicate_one, List.map_singleton, UInt32.ofNat_toNat, UInt32.add_comm,
      UInt32.sub_add_cancel]
  · rfl

theorem mappings?_build (builder : MapBuilder) :
    (DocumentMap.mk builder.build).mappings? = builder.sorted.mapM Entry.mapping? := by
  rw [DocumentMap.mappings?, traces_build, List.mapM_map]
  congr
  funext entry
  exact Entry.mapping?_trace _ entry

/-- The mappings on a line are the entries of the line in stable order, if all entries can be
counted. -/
theorem holdsOnLine_build {builder : MapBuilder}
    (counted : ∀ entry ∈ builder.entries.toList, entry.IsCounted) (line : UInt32) :
    (DocumentMap.mk builder.build).HoldsOnLine line
      (entriesOnLine builder.entries.toList line) := by
  have sort := builder.isStableSort_sorted
  obtain ⟨mappings, seen⟩ : ∃ mappings, builder.sorted.mapM Entry.mapping? = some mappings := by
    rw [← Option.ne_none_iff_exists', ne_eq, Option.mapM_eq_none_iff]
    rintro ⟨entry, member, uncounted⟩
    exact Entry.mapping?_eq_none_iff.mp uncounted (counted entry (sort.perm.mem_iff.mp member))
  refine ⟨_, mappings.filter (·.generated.line = line), sort.filter _, ?_, ?_⟩
  · refine Option.mapM_filter seen fun entry mapping given => ?_
    have position := Point.toPosition?_eq_some_iff.mp (Entry.toPosition?_of_mapping? given)
    rw [decide_eq_true_eq, decide_eq_true_eq, ← UInt32.toNat_inj, position.1]
  · rw [DocumentMap.mappingsOnLine?, mappings?_build, seen]
    rfl

end MapBuilder

namespace DocumentMap

variable {script : Option Script} {render : LineRange} {templateLine : UInt32} {entries : List Entry}

/-- The lines of a render function have one entry each unless the script is external. -/
theorem entriesOnLine_renderEntries (start : render.first ≠ 0) (line : UInt32) :
    entriesOnLine (renderEntries script render templateLine) line =
      if script.bind (·.external) = none ∧ render.first ≤ line ∧ line < render.stop then
        [Entry.ofLines line templateLine] else [] := by
  cases outside : script.bind (·.external) with
  | some content =>
    rw [renderEntries_external outside, if_neg fun both => Option.some_ne_none _ both.1]
    rfl
  | none =>
    have size : render.size = render.stop.toNat - render.first.toNat := rfl
    have fits : render.first.toNat + render.size ≤ 2 ^ 32 := by
      have := render.first.toNat_lt
      have := render.stop.toNat_lt
      omega
    have within : render.first ≤ line ∧ line.toNat < render.first.toNat + render.size ↔
        none = (none : Option String) ∧ render.first ≤ line ∧ line < render.stop := by
      simp only [UInt32.le_iff_toNat_le, UInt32.lt_iff_toNat_lt, true_and]
      omega
    rw [renderEntries_eq_lineEntries outside fun _ => start,
      MapBuilder.entriesOnLine_lineEntries start fits]
    simp only [within]

/-- The lines of a script without a map are led to themselves. -/
theorem entriesOnLine_scriptEntries {code : String} {external : Option String}
    (few : (Text.lineCount code).toNat + 1 < 2 ^ 32)
    (read : scriptEntries (some ⟨code, none, external⟩) = .ok entries) {line : UInt32}
    (positive : 1 ≤ line) :
    entriesOnLine entries line =
      if line ≤ Text.lineCount code then [Entry.ofLines line line] else [] := by
  rw [scriptEntries_unmapped] at read
  cases read
  have within : 1 ≤ line ∧ line.toNat < (1 : UInt32).toNat + (Text.lineCount code).toNat ↔
      line ≤ Text.lineCount code := by
    rw [UInt32.le_iff_toNat_le, UInt32.le_iff_toNat_le] at *
    change 1 ≤ _ at positive
    change 1 ≤ _ ∧ _ < 1 + _ ↔ _
    omega
  rw [MapBuilder.entriesOnLine_lineEntries (by decide) (by change 1 + _ ≤ _; omega)]
  simp only [within, id]

/-- The mappings on a line come from both parts in stable order, if the script's own map can be
counted. -/
theorem holdsOnLine_ofParts {documentText fileName : String} {map : DocumentMap}
    (success : ofParts script documentText fileName render templateLine = .ok map)
    (start : render.first ≠ 0) :
    ∃ entries, scriptEntries script = .ok entries ∧ (ScriptIsCounted script → ∀ line,
      map.HoldsOnLine line (entriesOnLine entries line ++
        if script.bind (·.external) = none ∧ render.first ≤ line ∧ line < render.stop then
          [Entry.ofLines line templateLine] else [])) := by
  obtain ⟨_, fits, entries, read, rfl⟩ := ofParts_eq_ok_iff.mp success
  refine ⟨entries, read, fun counted line => ?_⟩
  rw [← entriesOnLine_renderEntries start, ← entriesOnLine_append]
  have all : ∀ entry ∈ entries ++ renderEntries script render templateLine, entry.IsCounted :=
    List.forall_mem_append.mpr
      ⟨(isCounted_scriptEntries_iff read).mpr counted, isCounted_renderEntries fits⟩
  exact MapBuilder.holdsOnLine_build all line

end DocumentMap

end SingleFile
