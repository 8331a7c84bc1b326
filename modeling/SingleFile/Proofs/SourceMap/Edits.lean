import Mathlib.Data.List.Induction
import SingleFile.Proofs.SourceMap.Builder
import SingleFile.SourceMap.Codec

/-! # A builder that is edited

A builder is edited by adding mappings and by setting the content of its source. A mapping on line
zero is refused and leaves no trace. Of all other edits, the map that is built shows the content set
last and the added mappings in the order of their points, so edits in another order build the same
map as long as mappings at one point keep their order. Names are listed by their first use in the
built map, whenever they were added.
-/

namespace SingleFile

/-- A call that edits a builder. -/
inductive Edit where
  | add (generated original : Position) (name : Option String)
  | setContent (content : String)
deriving DecidableEq

namespace Edit

/-- Only a mapping can be refused, for a line zero on either side. -/
def IsRefused : Edit → Prop
  | .add generated original _ => generated.line = 0 ∨ original.line = 0
  | .setContent _ => False

instance : DecidablePred IsRefused
  | .add .. => inferInstanceAs (Decidable (_ ∨ _))
  | .setContent _ => inferInstanceAs (Decidable False)

/-- The entry that an edit adds, with lines counted from zero. -/
def addition? : Edit → Option Entry
  | .add ⟨line, column⟩ ⟨originalLine, originalColumn⟩ name =>
    if line = 0 ∨ originalLine = 0 then none
    else some ⟨⟨line - 1, column⟩, some ⟨⟨originalLine - 1, originalColumn⟩, name⟩⟩
  | .setContent _ => none

def content? : Edit → Option String
  | .add .. => none
  | .setContent content => some content

/-- The entries of the mappings that are not refused. -/
def accepted (edits : List Edit) : List Entry :=
  edits.filterMap addition?

def lastContent? (edits : List Edit) : Option String :=
  (edits.filterMap content?).getLast?

theorem addition?_of_isRefused {edit : Edit} (refused : edit.IsRefused) : edit.addition? = none := by
  cases edit with
  | add generated original name => exact if_pos refused
  | setContent content => rfl

theorem content?_of_isRefused {edit : Edit} (refused : edit.IsRefused) : edit.content? = none := by
  cases edit with
  | add generated original name => rfl
  | setContent content => exact refused.elim

theorem lastContent?_cons (edit : Edit) (rest : List Edit) :
    lastContent? (edit :: rest) = (lastContent? rest).or edit.content? := by
  cases edit with
  | add generated original name => exact (Option.or_none).symm
  | setContent content =>
    have kept : (setContent content :: rest).filterMap content? =
      content :: rest.filterMap content? := rfl
    rw [lastContent?, kept, List.getLast?_cons]
    change some ((lastContent? rest).getD content) = (lastContent? rest).or (some content)
    cases lastContent? rest <;> rfl

end Edit

namespace SourceMap

/-- The names of the tokens of a map, in the order of the tokens. -/
def usedNames (map : SourceMap) : List String :=
  map.traces.filterMap fun trace => trace.origin.bind (·.2)

/-- A map lists the names its tokens use, each once, in the order of their first uses. -/
structure ListsFirstUses (map : SourceMap) : Prop where
  nodup : map.names.Nodup
  used : ∀ name, name ∈ map.names ↔ name ∈ map.usedNames
  ordered : map.names.Pairwise fun first second =>
    map.usedNames.idxOf first < map.usedNames.idxOf second

/-- A name that is used once more is not listed again; a new one is listed last. -/
theorem table_concat (used : List String) (name : String) :
    table (used ++ [name]) = if name ∈ used then table used else table used ++ [name] := by
  rw [table, List.eraseDups_append]
  split <;> rename_i known
  · simp [table, List.removeAll, known]
  · simp [table, List.removeAll, known, List.eraseDups_cons]

/-- Names are listed in the order of their first uses. -/
theorem table_ordered (used : List String) :
    (table used).Pairwise fun first second => used.idxOf first < used.idxOf second := by
  induction used using List.reverseRecOn with
  | nil => exact .nil
  | append_singleton used name ih =>
    have kept {other : String} (member : other ∈ table used) :
        (used ++ [name]).idxOf other = used.idxOf other :=
      List.idxOf_append_of_mem (List.mem_eraseDups.mp member)
    have widened : (table used).Pairwise fun first second =>
        (used ++ [name]).idxOf first < (used ++ [name]).idxOf second := by
      refine ih.imp_of_mem fun firstMember secondMember before => ?_
      rw [kept firstMember, kept secondMember]
      exact before
    rw [table_concat]
    split <;> rename_i known
    · exact widened
    · refine List.pairwise_append.mpr ⟨widened, List.pairwise_singleton _ _, ?_⟩
      intro first member second last
      obtain rfl := List.mem_singleton.mp last
      rw [kept member, List.idxOf_append_of_notMem known]
      exact Nat.lt_of_lt_of_le (List.idxOf_lt_length_of_mem (List.mem_eraseDups.mp member))
        (Nat.le_add_right _ _)

end SourceMap

namespace MapBuilder

open Edit

/-- Applies an edit, which may be refused. -/
def edit (builder : MapBuilder) : Edit → Except MapError MapBuilder
  | .add generated original name => builder.add generated original name
  | .setContent content => .ok (builder.setContent content)

/-- The builder after an edit; after a refused one it is the same as before. -/
def step (builder : MapBuilder) (edit : Edit) : MapBuilder :=
  match builder.edit edit with
  | .ok after => after
  | .error _ => builder

def run (builder : MapBuilder) (edits : List Edit) : MapBuilder :=
  edits.foldl step builder

theorem run_append (builder : MapBuilder) (first second : List Edit) :
    builder.run (first ++ second) = (builder.run first).run second :=
  List.foldl_append

/-- An edit does what it says unless it is refused. -/
theorem edit_eq_ok {edit : Edit} (builder : MapBuilder) (fits : ¬ edit.IsRefused) :
    builder.edit edit = .ok ⟨builder.source, edit.content?.or builder.content,
      builder.entries ++ edit.addition?.toArray⟩ := by
  cases edit with
  | add generated original name =>
    obtain ⟨line, column⟩ := generated
    obtain ⟨originalLine, originalColumn⟩ := original
    obtain ⟨first, second⟩ := not_or.mp fits
    have added : (Edit.add ⟨line, column⟩ ⟨originalLine, originalColumn⟩ name).addition? =
      some ⟨⟨line - 1, column⟩, some ⟨⟨originalLine - 1, originalColumn⟩, name⟩⟩ := if_neg fits
    rw [added, MapBuilder.edit, add, Position.toPoint?, Position.toPoint?, if_neg first, if_neg second]
    rfl
  | setContent content => rfl

theorem exists_edit_eq_error_iff {edit : Edit} {builder : MapBuilder} :
    (∃ cause, builder.edit edit = .error cause) ↔ edit.IsRefused := by
  constructor
  · rintro ⟨cause, failure⟩
    by_contra fits
    cases failure.symm.trans (builder.edit_eq_ok fits)
  · intro refused
    cases edit with
    | add generated original name =>
      by_cases first : generated.line = 0
      · exact ⟨.lineZero .generated, by
          simp only [MapBuilder.edit, add, Position.toPoint?, if_pos first]⟩
      · have second := refused.resolve_left first
        exact ⟨.lineZero .original, by
          simp only [MapBuilder.edit, add, Position.toPoint?, if_neg first, if_pos second]⟩
    | setContent content => exact refused.elim

theorem step_of_isRefused {edit : Edit} (builder : MapBuilder) (refused : edit.IsRefused) :
    builder.step edit = builder := by
  obtain ⟨cause, failure⟩ := exists_edit_eq_error_iff.mpr refused
  rw [step, failure]

/-- Refused or not, a step adds the entry and the content of its edit. -/
theorem step_eq (builder : MapBuilder) (edit : Edit) :
    builder.step edit = ⟨builder.source, edit.content?.or builder.content,
      builder.entries ++ edit.addition?.toArray⟩ := by
  by_cases refused : edit.IsRefused
  · rw [builder.step_of_isRefused refused, content?_of_isRefused refused, addition?_of_isRefused refused]
    simp
  · rw [step, builder.edit_eq_ok refused]

/-- A run adds the accepted entries behind those that were there, and sets the last content. -/
theorem run_eq (builder : MapBuilder) (edits : List Edit) :
    builder.run edits = ⟨builder.source, (lastContent? edits).or builder.content,
      (builder.entries.toList ++ accepted edits).toArray⟩ := by
  induction edits generalizing builder with
  | nil => simp [run, lastContent?, accepted]
  | cons edit rest ih =>
    have stepped : builder.run (edit :: rest) = (builder.step edit).run rest := rfl
    have entries : accepted (edit :: rest) = edit.addition?.toList ++ accepted rest := by
      cases added : edit.addition? <;> simp [accepted, added]
    rw [stepped, ih, step_eq, lastContent?_cons, entries, Option.or_assoc]
    simp

theorem usedNames_build (builder : MapBuilder) : builder.build.usedNames =
    builder.sorted.filterMap fun entry => entry.target.bind (·.name) := by
  rw [SourceMap.usedNames, traces_build, List.filterMap_map]
  refine List.filterMap_congr fun entry _ => ?_
  obtain ⟨generated, _ | target⟩ := entry <;> rfl

theorem listsFirstUses_build (builder : MapBuilder) : builder.build.ListsFirstUses := by
  have names : builder.build.names = SourceMap.table builder.build.usedNames := by
    rw [usedNames_build]
    rfl
  have ordered := SourceMap.table_ordered builder.build.usedNames
  rw [← names] at ordered
  refine ⟨ordered.imp fun before same => ?_, fun name => ?_, ordered⟩
  · exact Nat.lt_irrefl _ (same ▸ before)
  · rw [names]
    exact List.mem_eraseDups

/-- A builder without the order in which entries at different points came builds the same map. -/
theorem build_congr {first second : MapBuilder} (source : first.source = second.source)
    (content : first.content = second.content)
    (rearranges : Rearranges Entry.generated first.entries.toList second.entries.toList) :
    first.build = second.build := by
  have sorted : first.sorted = second.sorted :=
    (first.isStableSort_sorted.of_rearranges rearranges).unique second.isStableSort_sorted
  rw [build, build, source, content, sorted]

/-- What is built after edits depends on the accepted mappings, up to the order of those at different
points, and on the last content. Refused mappings, which are those with a line zero, leave no trace in
the builder. The names are those of the sorted mappings by their first use, and every token has the
name it was added with. -/
theorem build_run (builder : MapBuilder) (edits : List Edit) :
    (∀ before edit after, edits = before ++ edit :: after →
      ((∃ cause, (builder.run before).edit edit = .error cause) ↔ edit.IsRefused) ∧
      (edit.IsRefused → builder.run (before ++ [edit]) = builder.run before ∧
        builder.run edits = builder.run (before ++ after))) ∧
    (∀ other, Rearranges Entry.generated (accepted edits) (accepted other) →
      lastContent? edits = lastContent? other →
      (builder.run edits).build = (builder.run other).build ∧
        (builder.run edits).build.encode = (builder.run other).build.encode) ∧
    (builder.run edits).build.ListsFirstUses ∧
    ∃ sorted, IsStableSort Entry.generated (builder.entries.toList ++ accepted edits) sorted ∧
      (builder.run edits).build.traces = sorted.map
        (Entry.trace ⟨builder.source, (lastContent? edits).or builder.content⟩) := by
  refine ⟨?refused, ?rearranged, listsFirstUses_build _, ?named⟩
  case refused =>
    rintro before edit after rfl
    refine ⟨exists_edit_eq_error_iff, fun refused => ?_⟩
    have skipped : builder.run (before ++ [edit]) = builder.run before := by
      rw [run_append]
      exact step_of_isRefused _ refused
    refine ⟨skipped, ?_⟩
    rw [List.append_cons, run_append, skipped, ← run_append]
  case rearranged =>
    intro other rearranges content
    have same : (builder.run edits).build = (builder.run other).build := by
      apply build_congr
      · rw [run_eq, run_eq]
      · rw [run_eq, run_eq, content]
      · rw [run_eq, run_eq]
        exact rearranges.append_left _
    exact ⟨same, congrArg SourceMap.encode same⟩
  case named =>
    have sort := (builder.run edits).isStableSort_sorted
    have traces := (builder.run edits).traces_build
    rw [run_eq] at sort traces ⊢
    exact ⟨_, sort, traces⟩

/-- Two mappings at one point and one behind them that is added first, with a refused one and a
content that is replaced. -/
def scatteredEdits : List Edit :=
  [.add ⟨5, 0⟩ ⟨2, 0⟩ (some "late"), .add ⟨0, 0⟩ ⟨1, 0⟩ none, .setContent "old",
    .add ⟨1, 4⟩ ⟨1, 0⟩ (some "early"), .add ⟨1, 4⟩ ⟨1, 9⟩ (some "late"), .setContent "text"]

/-- The same mappings in the order of their points, with another refused one. -/
def orderedEdits : List Edit :=
  [.setContent "text", .add ⟨1, 4⟩ ⟨1, 0⟩ (some "early"), .add ⟨1, 4⟩ ⟨1, 9⟩ (some "late"),
    .add ⟨3, 0⟩ ⟨0, 2⟩ (some "never"), .add ⟨5, 0⟩ ⟨2, 0⟩ (some "late")]

theorem rearranges_scatteredEdits :
    Rearranges Entry.generated (accepted scatteredEdits) (accepted orderedEdits) where
  perm := by decide
  stable point := by
    by_cases early : (⟨0, 4⟩ : Point) = point
    · subst early
      decide
    · have first : accepted scatteredEdits = [⟨⟨4, 0⟩, some ⟨⟨1, 0⟩, some "late"⟩⟩,
        ⟨⟨0, 4⟩, some ⟨⟨0, 0⟩, some "early"⟩⟩, ⟨⟨0, 4⟩, some ⟨⟨0, 9⟩, some "late"⟩⟩] := by decide
      have second : accepted orderedEdits = [⟨⟨0, 4⟩, some ⟨⟨0, 0⟩, some "early"⟩⟩,
        ⟨⟨0, 4⟩, some ⟨⟨0, 9⟩, some "late"⟩⟩, ⟨⟨4, 0⟩, some ⟨⟨1, 0⟩, some "late"⟩⟩] := by decide
      simp [first, second, List.filter_cons, early]

/-- Both build the map in which "early" comes first. -/
theorem build_run_scatteredEdits :
    Rearranges Entry.generated (accepted scatteredEdits) (accepted orderedEdits) ∧
      lastContent? scatteredEdits = lastContent? orderedEdits ∧
      ((empty "F.vue").run scatteredEdits).build = ((empty "F.vue").run orderedEdits).build ∧
      ((empty "F.vue").run orderedEdits).build.names = ["early", "late"] := by
  have sorted : ((empty "F.vue").run orderedEdits).sorted = accepted orderedEdits :=
    (isStableSort_sorted _).unique (.of_ordered (by decide))
  have names : ((empty "F.vue").run orderedEdits).build.names = ["early", "late"] := by
    rw [build, sorted]
    decide
  have content : lastContent? scatteredEdits = lastContent? orderedEdits := by decide
  obtain ⟨same, _⟩ := (build_run (empty "F.vue") scatteredEdits).2.1 orderedEdits
    rearranges_scatteredEdits content
  exact ⟨rearranges_scatteredEdits, content, same, names⟩

end MapBuilder

end SingleFile
