import SingleFile.Proofs.SourceMap.DocumentMap

/-! # Exact positions

A map stores lines from zero and reports them from one. The last line that 32 bits can store has no
number when lines are counted from one, and the program stops where it would have to report it; every
other line is reported as it is. All lines that are added by number avoid the last one, so the
mappings of a map can be listed, and then have exact positions, exactly if the lines of the script's
own map can be counted.
-/

namespace SingleFile

theorem toNat_sub_one {line : UInt32} (nonzero : line ≠ 0) :
    (line - 1).toNat + 1 = line.toNat := by
  have positive : line.toNat ≠ 0 := fun zero => nonzero (UInt32.toNat_inj.mp zero)
  have bound := line.toNat_lt
  rw [UInt32.toNat_sub]
  change (2 ^ 32 - 1 + line.toNat) % 2 ^ 32 + 1 = _
  omega

/-- The line of a point can be counted from one. -/
def Point.IsCounted (point : Point) : Prop :=
  point.line.toNat + 1 < 2 ^ 32

instance : DecidablePred Point.IsCounted :=
  fun _ => inferInstanceAs (Decidable (_ < _))

namespace Point

variable {point first second : Point}

theorem toPosition?_eq_none_iff : point.toPosition? = none ↔ ¬ point.IsCounted := by
  rw [toPosition?, Option.map_eq_none_iff, sum?_eq_none_iff]
  exact Nat.not_lt.symm

/-- A line that is not zero was counted from one to begin with. -/
theorem isCounted_sub_one {line column : UInt32} (nonzero : line ≠ 0) :
    (Point.mk (line - 1) column).IsCounted := by
  rw [IsCounted, toNat_sub_one nonzero]
  exact line.toNat_lt

theorem isCounted_ofNat {line : Nat} {column : UInt32} (below : line + 1 < 2 ^ 32) :
    (Point.mk (UInt32.ofNat line) column).IsCounted := by
  rw [IsCounted, UInt32.toNat_ofNat']
  omega

end Point

/-- The line that a trace stands on, and the one a sourced trace leads to, can be counted from one. -/
def Trace.IsCounted (trace : Trace) : Prop :=
  trace.generated.IsCounted ∧ (trace.origin.isSome → trace.cursor.IsCounted)

instance : DecidablePred Trace.IsCounted :=
  fun _ => inferInstanceAs (Decidable (_ ∧ (_ → _)))

namespace Trace

variable {trace : Trace} {mapping : Mapping}

theorem mapping?_eq_none_iff : trace.mapping? = none ↔ ¬ trace.IsCounted := by
  obtain ⟨generated, cursor, origin, isRange⟩ := trace
  rw [IsCounted, not_and_or, Classical.not_imp, ← Point.toPosition?_eq_none_iff,
    ← Point.toPosition?_eq_none_iff, mapping?]
  cases generated.toPosition? with
  | none => simp
  | some position =>
    cases origin with
    | none => simp
    | some origin => cases cursor.toPosition? <;> simp

/-- The position of a mapping is that of its trace. -/
theorem toPosition?_of_mapping? (seen : trace.mapping? = some mapping) :
    trace.generated.toPosition? = some mapping.generated := by
  obtain ⟨generated, first, seen⟩ := Option.bind_eq_some_iff.mp seen
  obtain ⟨point, cursor, _ | origin, isRange⟩ := trace
  · cases seen
    exact first
  · obtain ⟨original, _, seen⟩ := Option.bind_eq_some_iff.mp seen
    cases seen
    exact first

end Trace

/-- All lines that tokens stand on, and those that sourced tokens lead to, can be counted from one. -/
def SourceMap.IsCounted (map : SourceMap) : Prop :=
  ∀ trace ∈ map.traces, trace.IsCounted

instance : DecidablePred SourceMap.IsCounted :=
  fun map => decidable_of_iff (map.traces.all fun trace => decide trace.IsCounted)
    (by simp [SourceMap.IsCounted])

namespace DocumentMap

variable {map : DocumentMap} {mappings : List Mapping}

/-- Where all mappings can be listed, one is found exactly if it is on the list. -/
theorem hasMapping?_of_listed (listed : map.mappings? = some mappings)
    (generated original : Position) :
    map.hasMapping? generated original = some (mappings.any fun mapping =>
      mapping.generated = generated && mapping.original = some original) := by
  have each := Option.mapM_eq_some_iff.mp listed
  rw [hasMapping?]
  generalize map.map.traces = traces at each
  clear listed
  induction each with
  | nil => rfl
  | @cons trace mapping _ _ seen _ ih =>
    simp only [List.anyM_cons, seen, Option.map_some, Option.bind_eq_bind, Option.bind_some,
      List.any_cons, ih]
    cases mapping.generated = generated && mapping.original = some original <;> rfl

end DocumentMap

/-- The line that an entry stands on, and the one it leads to, can be counted from one. -/
def Entry.IsCounted (entry : Entry) : Prop :=
  entry.generated.IsCounted ∧ ∀ target ∈ entry.target, target.point.IsCounted

theorem Trace.isCounted_entry {trace : Trace} : trace.entry.IsCounted ↔ trace.IsCounted := by
  obtain ⟨generated, cursor, origin, isRange⟩ := trace
  cases origin <;> simp [Trace.entry, Entry.IsCounted, Trace.IsCounted]

theorem Entry.isCounted_trace {entry : Entry} {source : Source} :
    (entry.trace source).IsCounted ↔ entry.IsCounted := by
  rw [← Trace.isCounted_entry, Entry.entry_trace]

theorem Entry.IsCounted.ofPoints {generated original : Point} {name : Option String}
    (first : generated.IsCounted) (second : original.IsCounted) :
    (Entry.mk generated (some ⟨original, name⟩)).IsCounted :=
  ⟨first, fun _ given => Option.some.inj given ▸ second⟩

namespace DocumentMap

variable {script : Option Script} {render : LineRange} {templateLine : UInt32} {entries : List Entry}

/-- The lines of a render function, and that of its template, are counted from one to begin with. -/
theorem isCounted_renderEntries (fits : RenderFits script render templateLine) :
    ∀ entry ∈ renderEntries script render templateLine, entry.IsCounted := by
  intro entry member
  cases outside : script.bind (·.external) with
  | some content =>
    rw [renderEntries_external outside] at member
    exact absurd member List.not_mem_nil
  | none =>
    rw [renderEntries, outside, Option.isSome_none, if_neg Bool.false_ne_true] at member
    obtain ⟨line, within, rfl⟩ := List.mem_map.mp member
    have bounds := List.mem_range'_1.mp within
    have bound := render.stop.toNat_lt
    have template := (fits outside (by omega)).2
    exact .ofPoints (Point.isCounted_ofNat (by omega)) (Point.isCounted_sub_one template)

/-- A script brings no map of its own, or one whose lines can all be counted from one. -/
def ScriptIsCounted (script : Option Script) : Prop :=
  ∀ own decoded, script.bind (·.map) = some own → SourceMap.decode own = .ok decoded →
    decoded.IsCounted

theorem scriptIsCounted_iff {code own : String} {external : Option String} {decoded : SourceMap}
    (read : SourceMap.decode own = .ok decoded) :
    ScriptIsCounted (some ⟨code, some own, external⟩) ↔ decoded.IsCounted := by
  constructor
  · exact fun counted => counted own decoded rfl read
  · rintro counted _ found ⟨⟩ read'
    cases read.symm.trans read'
    exact counted

/-- The entries of a script can be counted from one if those of its own map can. -/
theorem isCounted_scriptEntries_iff (read : scriptEntries script = .ok entries) :
    (∀ entry ∈ entries, entry.IsCounted) ↔ ScriptIsCounted script := by
  obtain _ | ⟨code, none | own, external⟩ := script
  · cases read
    simp [ScriptIsCounted]
  · rw [scriptEntries] at read
    cases read
    simp only [ScriptIsCounted, Option.bind_some, reduceCtorEq, false_implies, implies_true, iff_true]
    intro entry member
    obtain ⟨line, within, rfl⟩ := List.mem_map.mp member
    have below := List.mem_range.mp within
    have bound := (Text.lineCount code).toNat_lt
    exact .ofPoints (Point.isCounted_ofNat (by omega)) (Point.isCounted_ofNat (by omega))
  · rw [scriptEntries, Except.map_eq_ok_iff] at read
    obtain ⟨decoded, read, rfl⟩ := read
    rw [scriptIsCounted_iff read, List.forall_mem_map]
    exact forall₂_congr fun trace _ => Trace.isCounted_entry

section OfParts

variable {documentText fileName : String} {map : DocumentMap}

end OfParts

end DocumentMap

end SingleFile
