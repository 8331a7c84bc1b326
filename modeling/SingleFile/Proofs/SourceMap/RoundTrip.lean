import SingleFile.SourceMap.Codec
import SingleFile.Proofs.Json.RoundTrip
import SingleFile.Proofs.SourceMap.Builder
import SingleFile.Proofs.SourceMap.Mappings

/-! # Built maps are read as written

The record of a built map has at most five fields, and reading its text gives them back. Its tokens
refer to the one source and to its names, so the mappings can be read too, and the map that is read
has the same source, content and names and the same entries, less those equal to the one before.
-/

namespace SingleFile

open Json

theorem RangeMarks.write?_eq_none {tokens : List Token}
    (single : ∀ token ∈ tokens, token.isRange = false) : write? tokens = none := by
  rw [write?, if_neg]
  simpa using single

namespace MapBuilder

variable (builder : MapBuilder)

/-- The record of a built map as it is read. -/
def record : FlatRecord where
  file := none
  sources := [builder.source]
  root := none
  contents := (builder.content.map some).toList
  names := builder.build.names
  marks := ""
  mappings := String.ofList (Mappings.write builder.build.tokens)
  debugId := none

/-- The record of a built map as it is written. -/
def written : Json :=
  .ofFields <|
    [("version", .ofNat 3), ("sources", .array [.ofText builder.source])] ++
    (builder.content.map fun text => ("sourcesContent", Json.array [.ofText text])).toList ++
    [("names", .array (builder.build.names.map .ofText)),
      ("mappings", .ofText (String.ofList (Mappings.write builder.build.tokens)))]

theorem isRange_build : ∀ token ∈ builder.build.tokens, token.isRange = false := by
  intro token member
  obtain ⟨entry, _, rfl⟩ := List.mem_map.mp member
  rfl

theorem toJson_build : builder.build.toJson = builder.written := by
  rw [SourceMap.toJson, RangeMarks.write?_eq_none builder.isRange_build]
  obtain ⟨source, _ | text, entries⟩ := builder <;> rfl

theorem writable_written : builder.written.Writable := by
  have texts (list : List String) : ∀ item ∈ list.map Json.ofText, item.Writable := by
    intro item member
    obtain ⟨text, _, rfl⟩ := List.mem_map.mp member
    exact .text text
  have single (text : String) : (Json.array [.ofText text]).Writable := .array (texts [text])
  apply writable_ofFields_iff.mpr
  intro field given
  simp only [List.mem_append, List.mem_cons, List.not_mem_nil, or_false, Option.mem_toList] at given
  rcases given with ((rfl | rfl) | given) | rfl | rfl
  · exact .natural 3
  · exact single builder.source
  · obtain ⟨text, _, rfl⟩ := Option.map_eq_some_iff.mp given
    exact single text
  · exact .array (texts _)
  · exact .text _

/-- The values of the thirteen fields of a written record. -/
theorem fields?_written : fields? Layout.fieldNames Layout.fieldNames.length builder.written =
    some [some (.ofNat 3), none, some (.array [.ofText builder.source]), none,
      builder.content.map fun text => .array [.ofText text], none,
      some (.array (builder.build.names.map .ofText)), none,
      some (.ofText (String.ofList (Mappings.write builder.build.tokens))), none, none, none, none] := by
  rw [written]
  cases builder.content <;> rfl

theorem items?_names (room : Nat) (names : List String) :
    items? (room + 1) Layout.name? (.array (names.map .ofText)) = some names := by
  change (names.map Json.ofText).mapM (Layout.name? room) = some names
  induction names with
  | nil => rfl
  | cons name rest ih =>
    have head : Layout.name? room (.ofText name) = some name := by cases room <;> rfl
    rw [List.map_cons, List.mapM_cons, head, ih]
    rfl

theorem flatRecord?_written (room : Nat) :
    Layout.flatRecord? (room + 1) none (some (.array [.ofText builder.source])) none
      (builder.content.map fun text => .array [.ofText text])
      (some (.array (builder.build.names.map .ofText))) none
      (some (.ofText (String.ofList (Mappings.write builder.build.tokens)))) none =
      some builder.record := by
  have names : optional? (items? (room + 1) Layout.name?)
      (some (.array (builder.build.names.map .ofText))) = some (some builder.build.names) :=
    congrArg (Option.map some) (items?_names room builder.build.names)
  rw [Layout.flatRecord?, names, record]
  cases builder.content <;> rfl

/-- The fields of a written record are read back. -/
theorem map?_written (room : Nat) :
    Layout.map? (room + 2) builder.written = some (.single builder.record) := by
  rw [Layout.map?, fields?_written]
  change (Layout.flatRecord? (room + 1) _ _ _ _ _ _ _ _).bind
    (fun record => some (MapTree.single record)) = _
  rw [flatRecord?_written]
  rfl

/-- The text of a built map is read as its record. -/
theorem read_encode : Layout.read builder.build.encode = .ok (.single builder.record) := by
  have parsed := parse?_render builder.writable_written
  have unguarded : Layout.skipGuardLine builder.written.render = .ok builder.written.render := by
    rw [written]
    cases builder.content <;> rfl
  rw [Layout.read, SourceMap.encode, toJson_build, String.toList_ofList, unguarded]
  dsimp only [bind, Except.bind]
  have tree : Layout.map? Layout.nestingLimit builder.written = _ := builder.map?_written 125
  rw [parsed, Option.bind_some, tree]
  rfl

/-- Tokens of a built map refer to the one source and to its names. -/
theorem fits_build : ∀ token ∈ builder.build.tokens, Mappings.Fits ⟨1, builder.build.names.length⟩ token := by
  intro token member
  obtain ⟨entry, sorted, rfl⟩ := List.mem_map.mp member
  refine ⟨?_, ?_, rfl⟩
  · intro origin found
    obtain ⟨target, _, rfl⟩ := Option.map_eq_some_iff.mp found
    exact Nat.zero_lt_one
  · intro origin found name named
    obtain ⟨target, leads, rfl⟩ := Option.map_eq_some_iff.mp found
    obtain ⟨text, given, rfl⟩ := Option.map_eq_some_iff.mp named
    exact List.idxOf_lt_length_iff.mpr (List.mem_eraseDups.mpr (mem_nameTable sorted leads given))

/-- What is read of a built map. -/
def reread : SourceMap where
  file := none
  root := none
  sources := [builder.onlySource]
  names := builder.build.names
  tokens := Mappings.rereadFrom .start none builder.build.tokens
  debugId := none

theorem decode_record (numbered : builder.build.names.length ≤ 2 ^ 32) :
    builder.record.decode = .ok builder.reread := by
  have limits : (Mappings.Limits.mk 1 builder.build.names.length).Numbered :=
    ⟨Nat.le_of_lt (by decide : 1 < 2 ^ 32), numbered⟩
  have tokens := Mappings.read_write limits builder.fits_build
  have sources : builder.record.sourceTable = [builder.onlySource] := by
    rw [FlatRecord.sourceTable, record, onlySource]
    cases builder.content <;> rfl
  rw [FlatRecord.decode, sources, record]
  change (Mappings.read ⟨1, builder.build.names.length⟩ [] _ >>= _) = _
  rw [String.toList_ofList, tokens]
  rfl

theorem decode_encode (numbered : builder.build.names.length ≤ 2 ^ 32) :
    SourceMap.decode builder.build.encode = .ok builder.reread := by
  rw [SourceMap.decode, read_encode]
  change (builder.record.decode.map MapTree.single >>= MapTree.join) = _
  rw [builder.decode_record numbered]
  rfl

/-- The entry that a token of a built map stands for. -/
def entryOf (token : Token) : Entry :=
  (SourceMap.trace [builder.onlySource] builder.build.names token).entry

theorem entryOf_reread (cursor : Mappings.Cursor) (token : Token) :
    builder.entryOf (cursor.reread token) = builder.entryOf token := by
  obtain ⟨generated, original, _ | origin, isRange⟩ := token <;> rfl

theorem entryOf_token {entry : Entry} (member : entry ∈ builder.sorted) :
    builder.entryOf (token builder.build.names entry) = entry := by
  rw [entryOf, build, trace_token member, Entry.entry_trace]

theorem entries_build : builder.build.traces.map Trace.entry = builder.sorted := by
  rw [traces_build, List.map_map]
  exact (List.map_congr_left fun entry _ => Entry.entry_trace _ entry).trans (List.map_id _)

/-- Different entries have different tokens, so dropping repeated tokens drops repeated entries. -/
theorem tokens_destutter : builder.build.tokens.destutter (· ≠ ·) =
    (builder.sorted.destutter (· ≠ ·)).map (token builder.build.names) := by
  have different : ∀ first ∈ builder.sorted, ∀ second ∈ builder.sorted,
      first ≠ second ↔ token builder.build.names first ≠ token builder.build.names second := by
    intro first firstMember second secondMember
    refine not_congr ⟨congrArg _, fun equal => ?_⟩
    rw [← builder.entryOf_token firstMember, equal, builder.entryOf_token secondMember]
  exact (List.map_destutter different).symm

/-- What is read of a built map are its entries, less those equal to the one before. -/
theorem entries_reread :
    builder.reread.traces.map Trace.entry = builder.sorted.destutter (· ≠ ·) := by
  calc
    builder.reread.traces.map Trace.entry
      = (Mappings.rereadFrom .start none builder.build.tokens).map builder.entryOf := by
        rw [SourceMap.traces, List.map_map]
        rfl
    _ = (builder.build.tokens.destutter (· ≠ ·)).map builder.entryOf :=
        Mappings.map_rereadFrom builder.entryOf_reread _
    _ = (builder.sorted.destutter (· ≠ ·)).map (builder.entryOf ∘ token builder.build.names) := by
        rw [tokens_destutter, List.map_map]
    _ = builder.sorted.destutter (· ≠ ·) :=
        (List.map_congr_left fun entry member =>
          builder.entryOf_token ((List.destutter_sublist _ _).subset member)).trans (List.map_id _)

/-- A built map whose names can be numbered with 32 bits is read from its text with its one source,
the content of that source, its names and its entries, less every entry equal to the one before. -/
theorem decode_encode_build (numbered : builder.build.names.length ≤ 2 ^ 32) :
    ∃ map, SourceMap.decode builder.build.encode = .ok map ∧
      map.rootedSources = [⟨builder.source, builder.content⟩] ∧
      map.names = builder.build.names ∧
      map.traces.map Trace.entry = (builder.build.traces.map Trace.entry).destutter (· ≠ ·) := by
  refine ⟨builder.reread, builder.decode_encode numbered, rfl, rfl, ?_⟩
  rw [entries_build, entries_reread]

/-- Four entries in order, two of them equal and one without a target, at both ends of the positions. -/
def repeatedEntries : MapBuilder where
  source := "é\".vue"
  content := some "a\n\x01"
  entries := #[⟨⟨0, 4⟩, some ⟨⟨4294967295, 0⟩, some "größe"⟩⟩,
    ⟨⟨0, 4⟩, some ⟨⟨4294967295, 0⟩, some "größe"⟩⟩, ⟨⟨0, 4294967295⟩, none⟩,
    ⟨⟨4294967295, 0⟩, some ⟨⟨0, 4294967295⟩, some "größe"⟩⟩]

theorem sorted_repeatedEntries : repeatedEntries.sorted = repeatedEntries.entries.toList :=
  repeatedEntries.isStableSort_sorted.unique (.of_ordered (by decide))

theorem decode_encode_repeatedEntries :
    ∃ map, SourceMap.decode repeatedEntries.build.encode = .ok map ∧
      map.rootedSources = [⟨"é\".vue", some "a\n\x01"⟩] ∧ map.names = ["größe"] ∧
      map.traces.map Trace.entry = [⟨⟨0, 4⟩, some ⟨⟨4294967295, 0⟩, some "größe"⟩⟩,
        ⟨⟨0, 4294967295⟩, none⟩, ⟨⟨4294967295, 0⟩, some ⟨⟨0, 4294967295⟩, some "größe"⟩⟩] := by
  have names : repeatedEntries.build.names = ["größe"] := by
    rw [build, sorted_repeatedEntries]
    decide
  obtain ⟨map, decoded, sources, sameNames, entries⟩ :=
    repeatedEntries.decode_encode_build (by rw [names]; decide)
  refine ⟨map, decoded, sources, sameNames.trans names, entries.trans ?_⟩
  rw [entries_build, sorted_repeatedEntries]
  decide

end MapBuilder

end SingleFile
