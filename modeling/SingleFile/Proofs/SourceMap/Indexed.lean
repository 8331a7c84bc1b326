import Mathlib.Data.List.Perm.Basic
import SingleFile.Proofs.Json.RoundTrip
import SingleFile.Proofs.SourceMap.Faults

/-! # Indexed maps

A tree of sections is read in two rounds: first every map in it, then the sections are joined from
the inside out. If all maps can be read, the two rounds are one recursion. It gathers the tokens of
every map, each moved by the offsets of the sections around it, and fails only where a section has no
map. So a script whose map is indexed leads to the same mappings as its sections.
-/

namespace SingleFile

/-- A token of a section where it stands in the whole, its place not bounded by any number of bits. -/
structure Placed where
  line : Nat
  column : Nat
  target : Option Target
deriving DecidableEq

namespace Placed

/-- The place of a token fits 32 bits. -/
def Fits (placed : Placed) : Prop :=
  placed.line < 2 ^ 32 ∧ placed.column < 2 ^ 32

instance : DecidablePred Fits :=
  fun _ => inferInstanceAs (Decidable (_ ∧ _))

/-- Moves a token down by the lines of an offset, and on the first line right by its columns. -/
def moveBy (offset : Point) (placed : Placed) : Placed where
  line := placed.line + offset.line.toNat
  column := placed.column + if placed.line = 0 then offset.column.toNat else 0
  target := placed.target

theorem Fits.of_moveBy {offset : Point} {placed : Placed} (fits : (placed.moveBy offset).Fits) :
    placed.Fits :=
  ⟨Nat.lt_of_le_of_lt (Nat.le_add_right _ _) fits.1,
    Nat.lt_of_le_of_lt (Nat.le_add_right _ _) fits.2⟩

end Placed

def Entry.placed (entry : Entry) : Placed :=
  ⟨entry.generated.line.toNat, entry.generated.column.toNat, entry.target⟩

/-- The place and the target of a trace, whatever its source. -/
def Trace.placed (trace : Trace) : Placed :=
  trace.entry.placed

theorem Trace.fits_placed (trace : Trace) : trace.placed.Fits :=
  ⟨trace.generated.line.toNat_lt, trace.generated.column.toNat_lt⟩

private theorem toNat_columnOffset (line column : UInt32) :
    (if line = 0 then column else 0).toNat = if line.toNat = 0 then column.toNat else 0 := by
  rw [apply_ite UInt32.toNat, UInt32.toNat_zero]
  exact if_congr UInt32.toNat_inj.symm rfl rfl

/-- A moved trace stands at the moved place. -/
theorem Trace.placed_of_moveBy? {offset : Point} {trace moved : Trace}
    (success : trace.moveBy? offset = some moved) : moved.placed = trace.placed.moveBy offset := by
  obtain ⟨line, lineSum, success⟩ := Option.bind_eq_some_iff.mp success
  obtain ⟨column, columnSum, success⟩ := Option.bind_eq_some_iff.mp success
  cases success
  rw [sum?_eq_some_iff] at lineSum columnSum
  rw [toNat_columnOffset] at columnSum
  exact (Placed.mk.injEq ..).mpr ⟨lineSum, columnSum, rfl⟩

/-- A trace is moved unless its place in the whole does not fit 32 bits. -/
theorem Trace.moveBy?_eq_none_iff {offset : Point} {trace : Trace} :
    trace.moveBy? offset = none ↔ ¬ (trace.placed.moveBy offset).Fits := by
  have lines : sum? trace.generated.line offset.line = none ↔
      ¬ (trace.placed.moveBy offset).line < 2 ^ 32 :=
    sum?_eq_none_iff.trans Nat.not_lt.symm
  have columns : sum? trace.generated.column
      (if trace.generated.line = 0 then offset.column else 0) = none ↔
      ¬ (trace.placed.moveBy offset).column < 2 ^ 32 := by
    rw [sum?_eq_none_iff, toNat_columnOffset]
    exact Nat.not_lt.symm
  rw [Placed.Fits, not_and_or, ← lines, ← columns, moveBy?]
  cases sum? trace.generated.line offset.line with
  | none => simp
  | some line =>
    cases sum? trace.generated.column (if trace.generated.line = 0 then offset.column else 0) with
    | none => simp
    | some column => simp

namespace SourceMap

/-- Numbering sources and names anew leaves every trace at its place, with its target. -/
theorem placed_ofTraces (file : Option String) (traces : List Trace) :
    (ofTraces file traces).traces.map Trace.placed = traces.map Trace.placed := by
  rw [SourceMap.traces, ofTraces, List.map_map, List.map_map]
  refine List.map_congr_left fun given member => ?_
  obtain ⟨generated, cursor, _ | ⟨source, name⟩, isRange⟩ := given
  · rfl
  · have origin : (source, name) ∈ traces.filterMap (·.origin) :=
      List.mem_filterMap.mpr ⟨_, member, rfl⟩
    have path : source.path ∈ (traces.filterMap (·.origin)).map (·.1.path) :=
      List.mem_map.mpr ⟨_, origin, rfl⟩
    cases name with
    | none =>
      simp only [Function.comp_apply, trace, rootedSources, Option.map_some, Option.map_none,
        Option.bind_some, Option.bind_none, List.getElem?_map, getElem?_idxOf_table path,
        Trace.placed, Trace.entry]
    | some name =>
      have used : name ∈ (traces.filterMap (·.origin)).filterMap (·.2) :=
        List.mem_filterMap.mpr ⟨_, origin, rfl⟩
      simp only [Function.comp_apply, trace, rootedSources, Option.map_some, Option.bind_some,
        List.getElem?_map, getElem?_idxOf_table path, getElem?_idxOf_table used, Trace.placed,
        Trace.entry]

end SourceMap

/-- Traces are the tokens at given places, in any order; there are no traces if one of the places does
not fit 32 bits. -/
inductive Gathers (places : List Placed) : Option (List Trace) → Prop
  | fitting {traces : List Trace} (perm : (traces.map Trace.placed).Perm places) :
      Gathers places (some traces)
  | overflowing {place : Placed} (member : place ∈ places) (overflows : ¬ place.Fits) :
      Gathers places none

namespace Gathers

variable {places places' : List Placed} {traces : Option (List Trace)}

theorem exists_traces (gathers : Gathers places traces) (fits : ∀ place ∈ places, place.Fits) :
    ∃ gathered, traces = some gathered ∧ (gathered.map Trace.placed).Perm places := by
  cases gathers with
  | fitting perm => exact ⟨_, rfl, perm⟩
  | overflowing member overflows => exact absurd (fits _ member) overflows

theorem eq_none_iff (gathers : Gathers places traces) :
    traces = none ↔ ∃ place ∈ places, ¬ place.Fits := by
  cases gathers with
  | overflowing member overflows => exact iff_of_true rfl ⟨_, member, overflows⟩
  | fitting perm =>
    refine iff_of_false (Option.some_ne_none _) ?_
    rintro ⟨place, member, overflows⟩
    obtain ⟨trace, _, rfl⟩ := List.mem_map.mp (perm.mem_iff.mpr member)
    exact overflows trace.fits_placed

theorem perm_places (gathers : Gathers places traces) (perm : places.Perm places') :
    Gathers places' traces := by
  cases gathers with
  | fitting gathered => exact .fitting (gathered.trans perm)
  | overflowing member overflows => exact .overflowing (perm.mem_iff.mp member) overflows

/-- Moving the traces of a section moves their places. -/
theorem moved {map : Option SourceMap} (gathers : Gathers places (map.map (·.traces)))
    (offset : Point) : Gathers (places.map (·.moveBy offset)) (movedTraces? offset map) := by
  cases map with
  | none =>
    cases gathers with
    | overflowing member overflows =>
      exact .overflowing (List.mem_map_of_mem member) fun fits => overflows fits.of_moveBy
  | some map =>
    cases gathers with
    | fitting perm =>
      have shifted : (map.traces.map fun trace => trace.placed.moveBy offset).Perm
          (places.map (·.moveBy offset)) := by
        simpa only [List.map_map, Function.comp_def] using perm.map (·.moveBy offset)
      cases outcome : movedTraces? offset (some map) with
      | none =>
        obtain ⟨trace, member, failed⟩ := Option.mapM_eq_none_iff.mp outcome
        exact .overflowing (shifted.mem_iff.mp (List.mem_map_of_mem member))
          (Trace.moveBy?_eq_none_iff.mp failed)
      | some moved =>
        have same : (map.traces.map fun trace => trace.placed.moveBy offset) =
            moved.map Trace.placed := by
          rw [← List.forall₂_eq_eq_eq, List.forall₂_map_left_iff, List.forall₂_map_right_iff]
          exact (Option.mapM_eq_some_iff.mp outcome).imp fun _ _ success =>
            (Trace.placed_of_moveBy? success).symm
        exact .fitting (same ▸ shifted)

/-- Numbering sources and names anew leaves the traces at their places. -/
theorem renumbered (gathers : Gathers places traces) (file : Option String) :
    Gathers places ((traces.map (SourceMap.ofTraces file)).map (·.traces)) := by
  cases gathers with
  | overflowing member overflows => exact .overflowing member overflows
  | @fitting traces perm =>
    refine .fitting ?_
    rwa [SourceMap.placed_ofTraces file traces]

/-- The traces of several sections together are at the places of all. -/
theorem flatten {places : List (List Placed)} {traces : List (Option (List Trace))}
    (each : List.Forall₂ Gathers places traces) :
    Gathers places.flatten ((traces.mapM id).map List.flatten) := by
  induction each with
  | nil => exact .fitting (.refl _)
  | @cons first head rest others gathers _ ih =>
    rw [List.mapM_cons]
    cases gathers with
    | overflowing member overflows => exact .overflowing (List.mem_append_left _ member) overflows
    | fitting perm =>
      cases later : others.mapM id with
      | none =>
        rw [later] at ih
        cases ih with
        | overflowing member overflows =>
          exact .overflowing (List.mem_append_right _ member) overflows
      | some lists =>
        rw [later] at ih
        cases ih with
        | fitting gathered =>
          refine .fitting ?_
          rw [List.flatten_cons, List.map_append]
          exact perm.append gathered

end Gathers

section Joining

variable {file : Option String} {parts : List (Point × Except DecodeError (Option SourceMap))}

def sortedParts (parts : List (Point × Except DecodeError (Option SourceMap))) :
    List (Point × Except DecodeError (Option SourceMap)) :=
  parts.mergeSort fun first second => first.1.le second.1

theorem sortedParts_perm (parts : List (Point × Except DecodeError (Option SourceMap))) :
    (sortedParts parts).Perm parts :=
  List.mergeSort_perm _ _

/-- The traces of a section, moved to their places, or its failure. -/
def partTraces (part : Point × Except DecodeError (Option SourceMap)) :
    Except DecodeError (Option (List Trace)) :=
  part.2.map (movedTraces? part.1)

theorem joinSections_eq : joinSections file parts =
    ((sortedParts parts).mapM partTraces >>= fun traces =>
      pure ((traces.mapM id).map fun traces => SourceMap.ofTraces file traces.flatten)) := rfl

/-- Sections that all have maps are joined, in whatever order, into the traces of all. -/
theorem exists_joinSections (file : Option String) {places : List (List Placed)}
    (each : List.Forall₂ (fun part places => ∃ traces, partTraces part = .ok traces ∧
      Gathers places traces) parts places) :
    ∃ map, joinSections file parts = .ok map ∧ Gathers places.flatten (map.map (·.traces)) := by
  obtain ⟨sorted, aligned, perm⟩ := List.perm_comp_forall₂ (sortedParts_perm parts) each
  obtain ⟨traces, success, gathers⟩ := Except.exists_mapM_of_forall₂ aligned
  refine ⟨_, by rw [joinSections_eq, success]; rfl, ?_⟩
  have joined := ((Gathers.flatten gathers).perm_places perm.flatten).renumbered file
  rwa [Option.map_map (SourceMap.ofTraces file)] at joined

/-- Sections one of which has failed are not joined; the failure is that of one of them. -/
theorem joinSections_eq_error (file : Option String)
    {part : Point × Except DecodeError (Option SourceMap)} {cause : DecodeError}
    (member : part ∈ parts) (failed : part.2 = .error cause) :
    ∃ failing ∈ parts, ∃ first, failing.2 = .error first ∧ joinSections file parts = .error first := by
  have sorted : part ∈ sortedParts parts := (sortedParts_perm parts).mem_iff.mpr member
  rw [joinSections_eq]
  cases outcome : (sortedParts parts).mapM partTraces with
  | ok traces =>
    obtain ⟨_, moved⟩ := Except.exists_of_mapM_eq_ok outcome part sorted
    obtain ⟨map, succeeded, _⟩ := Except.map_eq_ok_iff.mp moved
    cases failed.symm.trans succeeded
  | error first =>
    obtain ⟨before, failing, after, split, _, moved⟩ := Except.mapM_eq_error_iff.mp outcome
    have listed : failing ∈ sortedParts parts := by
      rw [split]
      exact List.mem_append_right _ List.mem_cons_self
    have given : failing ∈ parts := (sortedParts_perm parts).mem_iff.mp listed
    exact ⟨failing, given, first, Except.map_eq_error_iff.mp moved, rfl⟩

end Joining

namespace MapTree

variable {α : Type}

/-- Induction on a tree: what holds of every map, and of a tree of sections if it holds of the trees in
its sections, holds of every tree. -/
@[induction_eliminator]
theorem induct {motive : MapTree α → Prop} (single : ∀ map, motive (.single map))
    (indexed : ∀ file sections, (∀ part ∈ sections, ∀ tree, part.map = some tree → motive tree) →
      motive (.indexed file sections)) (tree : MapTree α) : motive tree :=
  MapTree.rec (motive_1 := motive)
    (motive_2 := fun sections => ∀ part ∈ sections, ∀ tree, part.map = some tree → motive tree)
    (motive_3 := fun part => ∀ tree, part.map = some tree → motive tree)
    (motive_4 := fun map => ∀ tree, map = some tree → motive tree)
    single indexed (fun _ member => absurd member List.not_mem_nil)
    (fun _ _ head rest => List.forall_mem_cons.mpr ⟨head, rest⟩) (fun _ _ _ carried => carried)
    nofun (fun _ holds _ same => Option.some.inj same ▸ holds) tree

/-- A map stands somewhere in a tree. -/
inductive Embeds : MapTree α → α → Prop
  | itself {map : α} : Embeds (.single map) map
  | inside {file : Option String} {sections : List (Section (MapTree α))} {part : Section (MapTree α)}
      {tree : MapTree α} {map : α} (member : part ∈ sections) (carried : part.map = some tree)
      (deeper : tree.Embeds map) : Embeds (.indexed file sections) map

/-- A section somewhere in a tree has no map, and names this address. -/
inductive Lacks : MapTree α → Option String → Prop
  | here {file : Option String} {sections : List (Section (MapTree α))} {part : Section (MapTree α)}
      (member : part ∈ sections) (missing : part.map = none) : Lacks (.indexed file sections) part.url
  | inside {file : Option String} {sections : List (Section (MapTree α))} {part : Section (MapTree α)}
      {tree : MapTree α} {url : Option String} (member : part ∈ sections)
      (carried : part.map = some tree) (deeper : tree.Lacks url) : Lacks (.indexed file sections) url

mutual

/-- The tokens of all maps in a tree that can be read, each moved by the offsets of the sections
around its map. -/
def placed : MapTree FlatRecord → List Placed
  | .single record =>
    match record.decode with
    | .ok map => map.traces.map Trace.placed
    | .error _ => []
  | .indexed _ sections => placedSections sections

def placedSections : List (Section (MapTree FlatRecord)) → List Placed
  | [] => []
  | ⟨_, _, none⟩ :: rest => placedSections rest
  | ⟨offset, _, some tree⟩ :: rest => tree.placed.map (·.moveBy offset) ++ placedSections rest

end

def placedSection (part : Section (MapTree FlatRecord)) : List Placed :=
  (part.map.map fun tree => tree.placed.map (·.moveBy part.offset)).getD []

theorem placedSections_eq (sections : List (Section (MapTree FlatRecord))) :
    placedSections sections = sections.flatMap placedSection := by
  induction sections with
  | nil => rfl
  | cons part rest ih =>
    obtain ⟨offset, url, _ | tree⟩ := part
    · rw [placedSections, ih]
      rfl
    · rw [placedSections, ih]
      rfl

/-- Reads and joins the maps of a tree. -/
def resolve (tree : MapTree FlatRecord) : Except DecodeError (Option SourceMap) := do
  (← tree.traverse FlatRecord.decode).flatten

/-- A section with its map resolved, which fails if the section has none. -/
def resolveSection (part : Section (MapTree FlatRecord)) :
    Point × Except DecodeError (Option SourceMap) :=
  (part.offset, match part.map with
    | none => .error (.unresolvedSection part.url)
    | some tree => tree.resolve)

/-- Sections whose maps can be read are joined as if each had been resolved by itself. -/
theorem exists_traverseSections {sections : List (Section (MapTree FlatRecord))}
    (each : ∀ part ∈ sections, ∀ tree, part.map = some tree →
      ∃ maps, tree.traverse FlatRecord.decode = .ok maps) :
    ∃ maps, traverseSections FlatRecord.decode sections = .ok maps ∧
      flattenSections maps = sections.map resolveSection := by
  induction sections with
  | nil => exact ⟨[], rfl, rfl⟩
  | cons part rest ih =>
    obtain ⟨head, others⟩ := List.forall_mem_cons.mp each
    obtain ⟨later, traversed, flattened⟩ := ih others
    obtain ⟨offset, url, _ | tree⟩ := part
    · refine ⟨⟨offset, url, none⟩ :: later, ?_, ?_⟩
      · rw [traverseSections, traversed]
        rfl
      · rw [flattenSections, flattened]
        rfl
    · obtain ⟨maps, own⟩ := head tree rfl
      refine ⟨⟨offset, url, some maps⟩ :: later, ?_, ?_⟩
      · rw [traverseSections, own, traversed]
        rfl
      · have resolved : tree.resolve = maps.flatten := by
          rw [resolve, own]
          rfl
        rw [flattenSections, flattened, ← resolved]
        rfl

/-- If all maps in a tree can be read, so can the tree. -/
theorem exists_traverse {tree : MapTree FlatRecord}
    (readable : ∀ record, tree.Embeds record → ∃ map, record.decode = .ok map) :
    ∃ maps, tree.traverse FlatRecord.decode = .ok maps := by
  induction tree with
  | single record =>
    obtain ⟨map, decoded⟩ := readable record .itself
    exact ⟨.single map, by rw [traverse, decoded]; rfl⟩
  | indexed file sections ih =>
    obtain ⟨maps, traversed, _⟩ := exists_traverseSections fun part member tree carried =>
      ih part member tree carried fun record embedded =>
        readable record (.inside member carried embedded)
    exact ⟨.indexed file maps, by rw [traverse, traversed]; rfl⟩

theorem resolve_indexed {file : Option String} {sections : List (Section (MapTree FlatRecord))}
    (readable : ∀ record, (indexed file sections).Embeds record → ∃ map, record.decode = .ok map) :
    (indexed file sections).resolve = joinSections file (sections.map resolveSection) := by
  obtain ⟨maps, traversed, flattened⟩ := exists_traverseSections fun part member tree carried =>
    exists_traverse fun record embedded => readable record (.inside member carried embedded)
  rw [resolve, traverse, traversed, ← flattened]
  rfl

/-- What becomes of a tree: it is flattened into the tokens of its maps if every section has one, and
else a section without a map is reported. -/
structure Flattens (tree : MapTree FlatRecord) (result : Except DecodeError (Option SourceMap)) :
    Prop where
  complete : (∀ url, ¬ tree.Lacks url) →
    ∃ map, result = .ok map ∧ Gathers tree.placed (map.map (·.traces))
  lacking : ∀ url, tree.Lacks url →
    ∃ named, tree.Lacks named ∧ result = .error (.unresolvedSection named)

theorem Flattens.named {tree : MapTree FlatRecord} {cause : DecodeError}
    (flattens : tree.Flattens (.error cause)) :
    ∃ named, tree.Lacks named ∧ cause = .unresolvedSection named := by
  by_cases lacking : ∃ url, tree.Lacks url
  · obtain ⟨url, lacks⟩ := lacking
    obtain ⟨named, lacks, failed⟩ := flattens.lacking url lacks
    exact ⟨named, lacks, Except.error.inj failed⟩
  · obtain ⟨map, succeeded, _⟩ := flattens.complete (not_exists.mp lacking)
    cases succeeded

section Sections

variable {file : Option String} {sections : List (Section (MapTree FlatRecord))}
  {part : Section (MapTree FlatRecord)} {tree : MapTree FlatRecord} {map : Option SourceMap}

theorem resolveSection_of_missing (missing : part.map = none) :
    resolveSection part = (part.offset, .error (.unresolvedSection part.url)) := by
  rw [resolveSection, missing]

theorem resolveSection_of_carried (carried : part.map = some tree) :
    resolveSection part = (part.offset, tree.resolve) := by
  rw [resolveSection, carried]

theorem placedSection_of_carried (carried : part.map = some tree) :
    placedSection part = tree.placed.map (·.moveBy part.offset) := by
  rw [placedSection, carried]
  rfl

/-- The traces of a section are the tokens of its tree at the place of the section. -/
theorem exists_partTraces (carried : part.map = some tree) (resolved : tree.resolve = .ok map)
    (gathers : Gathers tree.placed (map.map (·.traces))) :
    ∃ traces, partTraces (resolveSection part) = .ok traces ∧ Gathers (placedSection part) traces := by
  rw [placedSection_of_carried carried, resolveSection_of_carried carried, partTraces, resolved]
  exact ⟨_, rfl, gathers.moved part.offset⟩

/-- A tree that lacks a map has a section that fails. -/
theorem Lacks.exists_failed {url : Option String} (lacks : (indexed file sections).Lacks url)
    (each : ∀ part ∈ sections, ∀ tree, part.map = some tree → tree.Flattens tree.resolve) :
    ∃ part ∈ sections, ∃ cause, (resolveSection part).2 = .error cause := by
  cases lacks with
  | here member missing => exact ⟨_, member, _, by rw [resolveSection_of_missing missing]⟩
  | inside member carried deeper =>
    obtain ⟨named, _, failed⟩ := (each _ member _ carried).lacking url deeper
    exact ⟨_, member, _, by rw [resolveSection_of_carried carried]; exact failed⟩

/-- A section fails only because a map is lacking, in it or further inside. -/
theorem exists_lacks (member : part ∈ sections)
    (each : ∀ part ∈ sections, ∀ tree, part.map = some tree → tree.Flattens tree.resolve)
    {cause : DecodeError} (failed : (resolveSection part).2 = .error cause) :
    ∃ named, (indexed file sections).Lacks named ∧ cause = .unresolvedSection named := by
  cases carried : part.map with
  | none =>
    rw [resolveSection_of_missing carried] at failed
    exact ⟨part.url, .here member carried, (Except.error.inj failed).symm⟩
  | some tree =>
    rw [resolveSection_of_carried carried] at failed
    have flattens := each part member tree carried
    rw [show tree.resolve = .error cause from failed] at flattens
    obtain ⟨named, lacks, same⟩ := flattens.named
    exact ⟨named, .inside member carried lacks, same⟩

/-- Joining keeps what flattening did to the sections: the tokens of all of them, or a failure. -/
theorem flattens_indexed
    (each : ∀ part ∈ sections, ∀ tree, part.map = some tree → tree.Flattens tree.resolve) :
    (indexed file sections).Flattens (joinSections file (sections.map resolveSection)) where
  complete := by
    intro complete
    rw [placed, placedSections_eq, List.flatMap_def]
    apply exists_joinSections
    rw [List.forall₂_map_left_iff, List.forall₂_map_right_iff, List.forall₂_same]
    intro part member
    cases carried : part.map with
    | none => exact absurd (.here member carried) (complete part.url)
    | some tree =>
      obtain ⟨map, resolved, gathers⟩ := (each part member tree carried).complete
        fun url lacks => complete url (.inside member carried lacks)
      exact exists_partTraces carried resolved gathers
  lacking := by
    intro url lacks
    obtain ⟨part, member, cause, failed⟩ := lacks.exists_failed each
    obtain ⟨_, listed, first, failing, joined⟩ :=
      joinSections_eq_error file (List.mem_map_of_mem member) failed
    obtain ⟨other, there, rfl⟩ := List.mem_map.mp listed
    obtain ⟨named, lacks, rfl⟩ := exists_lacks there each failing
    exact ⟨named, lacks, joined⟩

end Sections

/-- If all maps in a tree can be read, the tree is flattened or lacks a map. -/
theorem flattens_resolve {tree : MapTree FlatRecord}
    (readable : ∀ record, tree.Embeds record → ∃ map, record.decode = .ok map) :
    tree.Flattens tree.resolve := by
  induction tree with
  | single record =>
    obtain ⟨map, decoded⟩ := readable record .itself
    refine ⟨fun _ => ⟨some map, ?_, ?_⟩, fun _ lacks => by cases lacks⟩
    · rw [resolve, traverse, decoded]
      rfl
    · rw [placed, decoded]
      exact .fitting (.refl _)
  | indexed file sections ih =>
    rw [resolve_indexed readable]
    exact flattens_indexed fun part member tree carried => ih part member tree carried
      fun record embedded => readable record (.inside member carried embedded)

end MapTree

theorem MapTree.join_eq (tree : MapTree SourceMap) :
    tree.join = tree.flatten >>= fun map => map.elim (.error .overflow) .ok := by
  rw [join]
  cases tree.flatten with
  | error cause => rfl
  | ok map => cases map <;> rfl

/-- Reading the text of a tree whose maps can all be read. If every section has a map, there is one map
with the tokens of all, each moved to its place, unless a place does not fit 32 bits, where the
reading stops. If some section has none, however deep it lies, that is reported. -/
theorem SourceMap.decode_indexed {text : String} {tree : MapTree FlatRecord}
    (read : Layout.read text = .ok tree)
    (readable : ∀ record, tree.Embeds record → ∃ map, record.decode = .ok map) :
    ((∀ url, ¬ tree.Lacks url) →
      ((∀ token ∈ tree.placed, token.Fits) →
        ∃ map, decode text = .ok map ∧ (map.traces.map Trace.placed).Perm tree.placed) ∧
      ((∃ token ∈ tree.placed, ¬ token.Fits) → decode text = .error .overflow)) ∧
    (∀ url, tree.Lacks url →
      ∃ named, tree.Lacks named ∧ decode text = .error (.unresolvedSection named)) := by
  have flattens := MapTree.flattens_resolve readable
  have joined : decode text = tree.resolve >>= fun map => map.elim (.error .overflow) .ok := by
    rw [decode, read, MapTree.resolve, bind_assoc]
    simp only [← MapTree.join_eq]
    rfl
  refine ⟨fun complete => ?complete, fun url lacks => ?lacking⟩
  case complete =>
    obtain ⟨map, resolved, gathers⟩ := flattens.complete complete
    rw [joined, resolved]
    constructor
    · intro fits
      obtain ⟨traces, found, perm⟩ := gathers.exists_traces fits
      obtain ⟨map, rfl, rfl⟩ := Option.map_eq_some_iff.mp found
      exact ⟨map, rfl, perm⟩
    · intro overflows
      obtain rfl := Option.map_eq_none_iff.mp (gathers.eq_none_iff.mpr overflows)
      rfl
  case lacking =>
    obtain ⟨named, lacks, failed⟩ := flattens.lacking url lacks
    exact ⟨named, lacks, by rw [joined, failed]; rfl⟩

namespace DocumentMap

/-- A script whose map is a tree of sections, all of whose maps can be read. If every section has a
map, the mappings of the script are the tokens of those maps, each moved to its place, and all lead to
the document. If some section has none, however deep it lies, that is reported. -/
theorem ofParts_indexed {text : String} {tree : MapTree FlatRecord} (read : Layout.read text = .ok tree)
    (readable : ∀ record, tree.Embeds record → ∃ map, record.decode = .ok map) {render : LineRange}
    (empty : render.stop ≤ render.first) (code documentText fileName : String)
    (templateLine : UInt32) :
    ((∀ url, ¬ tree.Lacks url) → (∀ token ∈ tree.placed, token.Fits) →
      ∃ map, ofParts (some ⟨code, some text, none⟩) documentText fileName render templateLine = .ok map ∧
        (map.map.traces.map Trace.placed).Perm tree.placed ∧
        map.map.rootedSources = [⟨Text.baseName fileName, some documentText⟩] ∧
        ∀ trace ∈ map.map.traces, ∀ origin ∈ trace.origin,
          origin.1 = ⟨Text.baseName fileName, some documentText⟩) ∧
    (∀ url, tree.Lacks url → ∃ named, tree.Lacks named ∧
      ofParts (some ⟨code, some text, none⟩) documentText fileName render templateLine =
        .error (.malformed (.unresolvedSection named))) := by
  have few : LinesFit (some ⟨code, some text, none⟩) := by
    rintro given ⟨⟩ missing
    cases missing
  obtain ⟨gathered, lacking⟩ := SourceMap.decode_indexed read readable
  refine ⟨fun complete fits => ?complete, fun url lacks => ?lacking⟩
  case complete =>
    obtain ⟨own, decoded, perm⟩ := (gathered complete).1 fits
    have entries : scriptEntries (some ⟨code, some text, none⟩) =
        .ok (own.traces.map Trace.entry) := by
      rw [scriptEntries, decoded]
      rfl
    have unmapped : renderEntries (some ⟨code, some text, none⟩) render templateLine = [] := by
      rw [renderEntries, Nat.sub_eq_zero_of_le (UInt32.le_iff_toNat_le.mp empty)]
      rfl
    have lines : RenderFits (some ⟨code, some text, none⟩) render templateLine := fun _ nonempty =>
      absurd (UInt32.le_iff_toNat_le.mp empty) (Nat.not_le_of_lt nonempty)
    refine ⟨_, ofParts_eq_ok_iff.mpr ⟨few, lines, _, entries, rfl⟩, ?tokens, rfl, ?origins⟩
    case tokens =>
      have sort := (builderOf (some ⟨code, some text, none⟩) documentText fileName
        (own.traces.map Trace.entry)).isStableSort_sorted
      rw [unmapped, List.append_nil, MapBuilder.traces_build, List.map_map]
      calc
        _ = (MapBuilder.sorted _).map Entry.placed :=
          List.map_congr_left fun entry _ => congrArg Entry.placed (Entry.entry_trace _ entry)
        List.Perm _ ((own.traces.map Trace.entry).map Entry.placed) := sort.perm.map Entry.placed
        _ = own.traces.map Trace.placed := List.map_map
        List.Perm _ tree.placed := perm
    case origins =>
      intro trace member origin given
      rw [MapBuilder.traces_build] at member
      obtain ⟨entry, _, rfl⟩ := List.mem_map.mp member
      obtain ⟨target, _, rfl⟩ := Option.map_eq_some_iff.mp given
      rfl
  case lacking =>
    obtain ⟨named, lacks, failed⟩ := lacking url lacks
    exact ⟨named, lacks, (ofParts_eq_error_iff few).mpr (.inl ⟨_, ⟨_, text, rfl, rfl, failed⟩, rfl⟩)⟩

/-- A section as it is written. -/
def sectionJson (offset : Point) (map : Json) : Json :=
  .ofFields [("offset", .ofFields [("line", .ofNat offset.line.toNat),
    ("column", .ofNat offset.column.toNat)]), ("map", map)]

def sectionsJson (sections : List Json) : Json :=
  .ofFields [("sections", .array sections)]

def mapJson (source name mappings : String) : Json :=
  .ofFields [("sources", .array [.ofText source]), ("names", .array [.ofText name]),
    ("mappings", .ofText mappings)]

/-- Two sections in the wrong order, the first of which has a section of its own. -/
def nestedJson : Json :=
  sectionsJson [sectionJson ⟨2, 5⟩ (sectionsJson [sectionJson ⟨0, 3⟩ (mapJson "b" "n" "CACAA;E")]),
    sectionJson ⟨0, 0⟩ (mapJson "a" "n" "AAAA")]

def nestedRecord : FlatRecord := ⟨none, ["b"], none, [], ["n"], "", "CACAA;E", none⟩

def plainRecord : FlatRecord := ⟨none, ["a"], none, [], ["n"], "", "AAAA", none⟩

def nestedTree : MapTree FlatRecord :=
  .indexed none [⟨⟨2, 5⟩, none, some (.indexed none [⟨⟨0, 3⟩, none, some (.single nestedRecord)⟩])⟩,
    ⟨⟨0, 0⟩, none, some (.single plainRecord)⟩]

theorem writable_nestedJson : nestedJson.Writable := by
  simp [nestedJson, sectionsJson, sectionJson, mapJson]

theorem read_nestedJson : Layout.read (String.ofList nestedJson.render) = .ok nestedTree := by
  have unguarded : Layout.skipGuardLine nestedJson.render = .ok nestedJson.render := rfl
  have tree : Layout.map? Layout.nestingLimit nestedJson = some nestedTree := rfl
  rw [Layout.read, String.toList_ofList, unguarded]
  dsimp only [bind, Except.bind]
  rw [Json.parse?_render writable_nestedJson, Option.bind_some, tree]
  rfl

theorem readable_nestedTree : ∀ record, nestedTree.Embeds record → ∃ map, record.decode = .ok map := by
  have nested : ∃ map, nestedRecord.decode = .ok map := ⟨_, rfl⟩
  have plain : ∃ map, plainRecord.decode = .ok map := ⟨_, rfl⟩
  intro record embedded
  cases embedded with
  | inside member carried deeper =>
    rcases List.mem_pair.mp member with rfl | rfl
    · cases carried
      cases deeper with
      | inside member carried deeper =>
        obtain rfl := List.mem_singleton.mp member
        cases carried
        cases deeper
        exact nested
    · cases carried
      cases deeper
      exact plain

theorem complete_nestedTree : ∀ url, ¬ nestedTree.Lacks url := by
  intro url lacks
  cases lacks with
  | here member missing =>
    rcases List.mem_pair.mp member with rfl | rfl <;> cases missing
  | inside member carried deeper =>
    rcases List.mem_pair.mp member with rfl | rfl
    · cases carried
      cases deeper with
      | here member missing =>
        obtain rfl := List.mem_singleton.mp member
        cases missing
      | inside member carried deeper =>
        obtain rfl := List.mem_singleton.mp member
        cases carried
        cases deeper
    · cases carried
      cases deeper

theorem placed_nestedTree : nestedTree.placed =
    [⟨2, 9, some ⟨⟨1, 0⟩, some "n"⟩⟩, ⟨3, 2, none⟩, ⟨0, 0, some ⟨⟨0, 0⟩, none⟩⟩] := rfl

/-- The first token has moved by both offsets, the one on the next line only by lines. -/
theorem ofParts_indexed_nestedSections :
    Layout.read (String.ofList nestedJson.render) = .ok nestedTree ∧
      (∀ record, nestedTree.Embeds record → ∃ map, record.decode = .ok map) ∧
      (∀ url, ¬ nestedTree.Lacks url) ∧ (∀ token ∈ nestedTree.placed, token.Fits) ∧
      ∃ map, ofParts (some ⟨"code", some (String.ofList nestedJson.render), none⟩) "text" "dir/F.vue"
          ⟨4, 1⟩ 0 = .ok map ∧
        (map.map.traces.map Trace.placed).Perm
          [⟨2, 9, some ⟨⟨1, 0⟩, some "n"⟩⟩, ⟨3, 2, none⟩, ⟨0, 0, some ⟨⟨0, 0⟩, none⟩⟩] ∧
        map.map.rootedSources = [⟨"F.vue", some "text"⟩] := by
  have fits : ∀ token ∈ nestedTree.placed, token.Fits := by
    rw [placed_nestedTree]
    decide
  have reversed : (LineRange.mk 4 1).stop ≤ (LineRange.mk 4 1).first := by decide
  have base : Text.baseName "dir/F.vue" = "F.vue" := by decide +kernel
  obtain ⟨map, made, perm, sources, _⟩ :=
    (ofParts_indexed read_nestedJson readable_nestedTree reversed "code" "text" "dir/F.vue" 0).1
      complete_nestedTree fits
  rw [base] at sources
  rw [placed_nestedTree] at perm
  exact ⟨read_nestedJson, readable_nestedTree, complete_nestedTree, fits, map, made, perm, sources⟩

end DocumentMap

end SingleFile
