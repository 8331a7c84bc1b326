import SingleFile.Proofs.Json.Fields
import SingleFile.Proofs.SourceMap.Indexed

/-! # Metadata about functions

A map may carry a table of function names with mappings of their own. Nothing is read from it: a map
with a table of the right form is the map without it, and this is so for the map of a section as well,
however many maps stand around it. Only the containers of the table count. If they nest deeper than a
map's text may, the text is refused.
-/

namespace SingleFile

namespace Layout

open Json

variable {record : Json} {room : Nat}

/-- Function metadata of one kind: names, which must be texts, and mappings in any text. -/
def IsFunctionRecord (record : Json) : Prop :=
  ∃ (names : List String) (mappings : String), fields? ["names", "mappings"] 2 record =
    some [some (.array (names.map .ofText)), some (.ofText mappings)]

/-- The metadata of one source, which may have none. -/
inductive IsFunctionEntry : Json → Prop
  | null : IsFunctionEntry .null
  | records {records : List Json} (each : ∀ record ∈ records, IsFunctionRecord record) :
      IsFunctionEntry (.array records)

/-- A table of function metadata, with an entry for each source. -/
inductive IsFunctionTable : Json → Prop
  | entries {entries : List Json} (each : ∀ entry ∈ entries, IsFunctionEntry entry) :
      IsFunctionTable (.array entries)

/-- How deep the containers of an entry nest: every record has an array of names in it. -/
def entryNesting : Json → Nat
  | .array [] => 1
  | .array _ => 3
  | _ => 0

/-- How deep the containers of a table nest. -/
def tableNesting : Json → Nat
  | .array entries => (entries.map entryNesting).foldr max 0 + 1
  | _ => 0

theorem tableNesting_le_iff {entries : List Json} :
    tableNesting (.array entries) ≤ room + 1 ↔ ∀ entry ∈ entries, entryNesting entry ≤ room := by
  rw [tableNesting, Nat.add_le_add_iff_right]
  induction entries with
  | nil => simp
  | cons entry rest ih =>
    rw [List.map_cons, List.foldr_cons, Nat.max_le, ih, List.forall_mem_cons]

theorem functions?_of_isFunctionRecord (isRecord : IsFunctionRecord record) :
    (functions? room record).isSome ↔ 2 ≤ room := by
  obtain ⟨names, mappings, given⟩ := isRecord
  have texts : (names.map ofText).mapM asText? = some names := by
    rw [List.mapM_map, Option.mapM_eq_some_iff, List.forall₂_same]
    exact fun _ _ => rfl
  rw [functions?, given]
  rcases room with _ | _ | room
  · simp
  · simp [items?]
  · simp [items?, texts, asText?, ofText]

theorem isSome_entry {entry : Json} (isEntry : IsFunctionEntry entry) :
    (orNull? (items? room functions?) entry).isSome ↔ entryNesting entry ≤ room := by
  cases isEntry with
  | null => simp [orNull?, entryNesting]
  | @records records each =>
    rw [orNull?, Option.isSome_map]
    · cases room with
      | zero => cases records <;> simp [items?, entryNesting]
      | succ room =>
        rw [items?, Option.isSome_mapM_iff]
        cases records with
        | nil => simp [entryNesting]
        | cons record rest =>
          have bound : ∀ each ∈ record :: rest, ((functions? room each).isSome ↔ 2 ≤ room) :=
            fun record listed => functions?_of_isFunctionRecord (each record listed)
          rw [forall₂_congr bound, entryNesting]
          · simp +contextual
          · nofun
    · nofun

/-- A table of the right form is read as far as its containers may nest. -/
theorem isSome_table {table : Json} (isTable : IsFunctionTable table) :
    (items? room (fun room => orNull? (items? room functions?)) table).isSome ↔
      tableNesting table ≤ room := by
  obtain @⟨entries, each⟩ := isTable
  cases room with
  | zero => simp [items?, tableNesting]
  | succ room =>
    rw [items?, Option.isSome_mapM_iff, tableNesting_le_iff]
    exact forall₂_congr fun entry listed => isSome_entry (each entry listed)

theorem optional?_of_ne_null {α : Type} (reader : Json → Option α) {value : Json}
    (given : value ≠ .null) : optional? reader (some value) = (reader value).map some := by
  rw [optional?, orNull?]
  exact given

theorem optional?_array {α : Type} (reader : Json → Option α) (items : List Json) :
    optional? reader (some (.array items)) = (reader (.array items)).map some := rfl

/-- The metadata of a record counts as if there were no functions, if their table may nest so deep. -/
theorem metadata?_of_isFunctionTable {table : Json} (isTable : IsFunctionTable table)
    (offsets modules : Option Json) :
    metadata? room offsets modules (some table) =
      if tableNesting table ≤ room then metadata? room offsets modules none else none := by
  have read : _ ↔ tableNesting table ≤ room := isSome_table isTable
  have given : table ≠ .null := by
    rintro rfl
    cases isTable
  rw [metadata?, metadata?, optional?_of_ne_null _ given]
  split
  · rename_i fits
    obtain ⟨entries, success⟩ := Option.isSome_iff_exists.mp (read.mpr fits)
    rw [success]
    rfl
  · rename_i deep
    rw [← read, Option.not_isSome_iff_eq_none] at deep
    rw [deep]
    cases optional? (items? room fun _ => orNull? asUInt32?) offsets <;>
      cases optional? (items? room fun _ => asText?) modules <;> rfl

/-- The map of a record whose fields are given. -/
def mapOf? (room : Nat) (given : String → Option Json) : Option (MapTree FlatRecord) := do
  let _ ← optional? asUInt32? (given "version")
  let _ ← metadata? room (given "x_facebook_offsets") (given "x_metro_module_paths")
    (given "x_facebook_sources")
  let record ← flatRecord? room (given "file") (given "sources") (given "sourceRoot")
    (given "sourcesContent") (given "names") (given "rangeMappings") (given "mappings")
    (given "debug_id")
  match ← optional? (sections? room) (given "sections") with
  | none => some (.single record)
  | some sections => some (.indexed record.file sections)

theorem map?_eq_mapOf? {given : String → Option Json}
    (fields : fields? fieldNames fieldNames.length record = some (fieldNames.map given)) :
    map? (room + 1) record = mapOf? room given := by
  rw [map?, fields]
  rfl

/-- The section of a record whose fields are given. -/
def sectionOf? (room : Nat) (given : String → Option Json) :
    Option (Section (MapTree FlatRecord)) := do
  let offset ← given "offset"
  some ⟨← offset? room offset, ← optional? asText? (given "url"),
    ← optional? (map? room) (given "map")⟩

def sectionNames : List String :=
  ["offset", "url", "map"]

theorem section?_eq_sectionOf? {given : String → Option Json}
    (fields : fields? sectionNames 3 record = some (sectionNames.map given)) :
    Layout.section? (room + 1) record = sectionOf? room given := by
  have listed : sectionNames.map given = [given "offset", given "url", given "map"] := rfl
  rw [section?, sectionOf?]
  change (fields? sectionNames 3 record >>= _) = _
  rw [fields, listed]
  cases given "offset" <;> rfl

theorem map?_of_unreadable (unreadable : fields? fieldNames fieldNames.length record = none) :
    map? (room + 1) record = none := by
  rw [map?, unreadable]
  rfl

theorem section?_of_unreadable (unreadable : fields? sectionNames 3 record = none) :
    Layout.section? (room + 1) record = none := by
  rw [section?]
  change (fields? sectionNames 3 record >>= _) = _
  rw [unreadable]
  rfl

/-- A reader with more room than needed reads a value as it reads another; with less room it refuses
the value. -/
def ReadsAs {α : Type} (read : Nat → Json → Option α) (need : Nat) (value value' : Json) : Prop :=
  ∀ room, read room value = if need < room then read room value' else none

section Inside

variable {need : Nat} {map map' part part' record' : Json} {before after : List Json}

theorem readsAs_section? (given : map ≠ .null ∧ map' ≠ .null)
    (carried : ReplacesField sectionNames "map" map map' part part')
    (reads : ReadsAs map? need map map') : ReadsAs section? (need + 1) part part' := by
  rintro (_ | room)
  · rfl
  simp only [Nat.add_lt_add_iff_right]
  cases carried.differsAt 3 (by decide) (by decide) with
  | unreadable first second =>
    rw [section?_of_unreadable first, section?_of_unreadable second, ite_self]
  | readable fields there first second =>
    have old := optional?_of_ne_null (map? room) given.1
    have new := optional?_of_ne_null (map? room) given.2
    rw [section?_eq_sectionOf? first, section?_eq_sectionOf? second]
    simp only [sectionOf?, there, Function.update_apply, String.reduceEq, reduceIte, old, new,
      reads room]
    split_ifs
    · rfl
    · cases fields "offset" with
      | none => rfl
      | some offset =>
        cases offset? room offset <;> cases optional? asText? (fields "url") <;> simp

theorem readsAs_sections? (reads : ReadsAs section? need part part') :
    ReadsAs sections? (need + 1) (.array (before ++ part :: after))
      (.array (before ++ part' :: after)) := by
  rintro (_ | room)
  · rfl
  simp only [Nat.add_lt_add_iff_right]
  simp only [sections?, List.mapM_append, List.mapM_cons, reads room]
  split_ifs
  · rfl
  · cases before.mapM (section? room) <;> rfl

theorem readsAs_map?
    (listed : ReplacesField fieldNames "sections" (.array (before ++ part :: after))
      (.array (before ++ part' :: after)) record record')
    (reads : ReadsAs sections? need (.array (before ++ part :: after))
      (.array (before ++ part' :: after))) :
    ReadsAs map? (need + 1) record record' := by
  rintro (_ | room)
  · rfl
  simp only [Nat.add_lt_add_iff_right]
  cases listed.differsAt fieldNames.length (by decide) (by decide) with
  | unreadable first second =>
    rw [map?_of_unreadable first, map?_of_unreadable second, ite_self]
  | readable given there first second =>
    rw [map?_eq_mapOf? first, map?_eq_mapOf? second]
    simp only [mapOf?, there, Function.update_apply, String.reduceEq, reduceIte, optional?_array,
      reads room]
    split_ifs
    · rfl
    · cases optional? asUInt32? (given "version") <;>
        cases metadata? room (given "x_facebook_offsets") (given "x_metro_module_paths")
          (given "x_facebook_sources") <;>
        cases flatRecord? room (given "file") (given "sources") (given "sourceRoot")
          (given "sourcesContent") (given "names") (given "rangeMappings") (given "mappings")
          (given "debug_id") <;>
        rfl

end Inside

/-- One record is another without the function metadata of one map in it, which stands as many sections
deep as said. -/
inductive DropsTable (table : Json) : Nat → Json → Json → Prop
  | here (before after : List (Option String × Json))
      (once : ∀ member ∈ before ++ after, member.1 ≠ some "x_facebook_sources") :
      DropsTable table 0 (.object (before ++ (some "x_facebook_sources", table) :: after))
        (.object (before ++ after))
  | inside {depth : Nat} {map map' part part' record record' : Json} (before after : List Json)
      (deeper : DropsTable table depth map map')
      (carried : ReplacesField sectionNames "map" map map' part part')
      (listed : ReplacesField fieldNames "sections" (.array (before ++ part :: after))
        (.array (before ++ part' :: after)) record record') :
      DropsTable table (depth + 1) record record'

namespace DropsTable

variable {table record' : Json} {depth : Nat}

theorem readsAs_here {before after : List (Option String × Json)} (isTable : IsFunctionTable table)
    (once : ∀ member ∈ before ++ after, member.1 ≠ some "x_facebook_sources") :
    ReadsAs map? (tableNesting table)
      (.object (before ++ (some "x_facebook_sources", table) :: after))
      (.object (before ++ after)) := by
  rintro (_ | room)
  · rfl
  simp only [Nat.lt_succ_iff]
  cases differsAt_erase fieldNames fieldNames.length table (by decide) once with
  | unreadable first second =>
    rw [map?_of_unreadable first, map?_of_unreadable second, ite_self]
  | readable given there first second =>
    rw [map?_eq_mapOf? first, map?_eq_mapOf? second]
    simp only [mapOf?, there, metadata?_of_isFunctionTable isTable, Function.update_apply,
      String.reduceEq, reduceIte]
    split_ifs
    · rfl
    · cases optional? asUInt32? (given "version") <;> rfl

theorem ne_null (drops : DropsTable table depth record record') :
    record ≠ .null ∧ record' ≠ .null := by
  cases drops with
  | here before after once => exact ⟨nofun, nofun⟩
  | inside before after deeper carried listed => cases listed <;> exact ⟨nofun, nofun⟩

/-- A record is read as the one without the function metadata, if that does not nest too deep. A
section takes the room of three containers: the list of sections, the section and its map. -/
theorem readsAs (drops : DropsTable table depth record record') (isTable : IsFunctionTable table) :
    ReadsAs map? (3 * depth + tableNesting table) record record' := by
  induction drops with
  | here before after once => simpa using readsAs_here isTable once
  | inside before after deeper carried listed ih =>
    have reads := readsAs_map? listed (readsAs_sections? (readsAs_section? deeper.ne_null carried ih))
    convert reads using 1
    omega

/-- A map behind too many sections is read neither with nor without the metadata. -/
theorem readsAs_self (drops : DropsTable table depth record record') :
    ReadsAs map? (3 * depth) record' record' := by
  induction drops with
  | here before after once =>
    rintro (_ | room)
    · rfl
    · exact (if_pos (by omega)).symm
  | inside before after deeper carried listed ih =>
    exact readsAs_map? listed.right
      (readsAs_sections? (readsAs_section? ⟨deeper.ne_null.2, deeper.ne_null.2⟩ carried.right ih))

end DropsTable

/-- A text holds this record, behind a guard line or without one. -/
def Holds (text : String) (record : Json) : Prop :=
  ∃ body, skipGuardLine text.toList = .ok body ∧ parse? body = some record

theorem read_of_holds {text : String} (holds : Holds text record) :
    read text = match map? nestingLimit record with
      | some tree => .ok tree
      | none => .error .badJson := by
  obtain ⟨body, unguarded, parsed⟩ := holds
  rw [read, unguarded]
  dsimp only [bind, Except.bind]
  rw [parsed, Option.bind_some]
  rfl

/-- An object starts with a blank or a brace, so a text that spells one has no guard line. -/
theorem skipGuardLine_of_spells {text : List Char} {members : List (Option String × Json)}
    (spelled : SpellsPadded (.object members) text) : skipGuardLine text = .ok text := by
  obtain @⟨_, before, text, after, blank, spelled, _⟩ := spelled
  cases before with
  | nil => cases spelled <;> rfl
  | cons c before =>
    have first := blank c List.mem_cons_self
    simp only [List.mem_cons, List.not_mem_nil, or_false] at first
    rcases first with rfl | rfl | rfl | rfl <;> rfl

theorem holds_of_spells {text : String} {members : List (Option String × Json)}
    (spelled : SpellsPadded (.object members) text.toList) : Holds text (.object members) :=
  ⟨text.toList, skipGuardLine_of_spells spelled, parse?_of_spells spelled⟩

end Layout

open Layout

section FunctionTable

variable {depth : Nat} {table record record' : Json} {text text' : String}

/-- Function metadata, in whatever map of an indexed map, changes nothing: the text is read as a text
without it, and so is a script with that map. Only where the metadata, but not the map it belongs to,
nests deeper than a map's text may, the text is refused for it. -/
theorem SourceMap.decode_functionTable (isTable : IsFunctionTable table)
    (drops : DropsTable table depth record record') (holds : Holds text record)
    (holds' : Holds text' record') :
    (3 * depth + tableNesting table < nestingLimit ∨ nestingLimit ≤ 3 * depth →
      SourceMap.decode text = SourceMap.decode text' ∧
      ∀ code external documentText fileName render templateLine,
        DocumentMap.ofParts (some ⟨code, some text, external⟩) documentText fileName render
            templateLine =
          DocumentMap.ofParts (some ⟨code, some text', external⟩) documentText fileName render
            templateLine) ∧
    (nestingLimit ≤ 3 * depth + tableNesting table → SourceMap.decode text = .error .badJson) := by
  have reads := drops.readsAs isTable nestingLimit
  refine ⟨fun fits => ?same, fun deep => ?refused⟩
  case same =>
    have records : map? nestingLimit record = map? nestingLimit record' := by
      rcases fits with fits | deep
      · rwa [if_pos fits] at reads
      · rw [reads, if_neg (by omega), drops.readsAs_self nestingLimit, if_neg (Nat.not_lt_of_le deep)]
    have decoded : SourceMap.decode text = SourceMap.decode text' := by
      rw [SourceMap.decode, SourceMap.decode, read_of_holds holds, read_of_holds holds', records]
    refine ⟨decoded, fun code external documentText fileName render templateLine => ?_⟩
    cases external <;>
      simp only [DocumentMap.ofParts, ScriptOrigin.of, DocumentMap.scriptPart, decoded]
  case refused =>
    rw [if_neg (Nat.not_lt_of_le deep)] at reads
    rw [SourceMap.decode, read_of_holds holds, reads]
    rfl

end FunctionTable

/-- A map with one token and, if a table is given, function metadata. -/
def tokenJson (table : Option Json) : Json :=
  .ofFields ((table.map fun table => ("x_facebook_sources", table)).toList ++
    [("mappings", .ofText "A")])

/-- A map inside as many sections. -/
def nestJson : Nat → Json → Json
  | 0, map => map
  | depth + 1, map => DocumentMap.sectionsJson [DocumentMap.sectionJson ⟨0, 0⟩ (nestJson depth map)]

theorem writable_nestJson {map : Json} (writable : map.Writable) (depth : Nat) :
    (nestJson depth map).Writable := by
  induction depth with
  | zero => exact writable
  | succ depth ih => simp [nestJson, DocumentMap.sectionsJson, DocumentMap.sectionJson, ih]

theorem dropsTable_nestJson (table : Json) (depth : Nat) :
    DropsTable table depth (nestJson depth (tokenJson (some table)))
      (nestJson depth (tokenJson none)) := by
  induction depth with
  | zero => exact .here [] _ (by simp)
  | succ depth ih =>
    exact .inside [] [] ih (.object [_] []) (.object [] [])

def nestText (depth : Nat) (table : Option Json) : String :=
  String.ofList (nestJson depth (tokenJson table)).render

theorem map?_nest {map : Json} {tree : MapTree FlatRecord} {room : Nat}
    (read : map? (room + 1) map = some tree) :
    map? (room + 4) (DocumentMap.sectionsJson [DocumentMap.sectionJson ⟨0, 0⟩ map]) =
      some (.indexed none [⟨⟨0, 0⟩, none, some tree⟩]) := by
  have given : map ≠ .null := by
    rintro rfl
    cases read
  have carried : Json.optional? (map? (room + 1)) (some map) = some (some tree) := by
    rw [optional?_of_ne_null _ given, read]
    rfl
  have part : section? (room + 2) (DocumentMap.sectionJson ⟨0, 0⟩ map) =
      some ⟨⟨0, 0⟩, none, some tree⟩ := by
    have fields : Json.fields? sectionNames 3 (DocumentMap.sectionJson ⟨0, 0⟩ map) =
        some (sectionNames.map (Function.update (Function.update (fun _ => none) "map" (some map))
          "offset" (some (.ofFields [("line", .ofNat 0), ("column", .ofNat 0)])))) := rfl
    rw [section?_eq_sectionOf? fields]
    simp only [sectionOf?, Function.update_apply, String.reduceEq, reduceIte, carried]
    rfl
  have parts : Json.optional? (sections? (room + 3))
      (some (.array [DocumentMap.sectionJson ⟨0, 0⟩ map])) =
        some (some [⟨⟨0, 0⟩, none, some tree⟩]) := by
    rw [optional?_array, sections?, List.mapM_cons, part]
    rfl
  have fields : Json.fields? fieldNames fieldNames.length
      (DocumentMap.sectionsJson [DocumentMap.sectionJson ⟨0, 0⟩ map]) =
        some (fieldNames.map (Function.update (fun _ => none) "sections"
          (some (.array [DocumentMap.sectionJson ⟨0, 0⟩ map])))) := rfl
  rw [map?_eq_mapOf? fields]
  simp only [mapOf?, Function.update_apply, String.reduceEq, reduceIte, parts]
  rfl

def tokenRecord : FlatRecord := ⟨none, [], none, [], [], "", "A", none⟩

def nestTree : Nat → MapTree FlatRecord
  | 0 => .single tokenRecord
  | depth + 1 => .indexed none [⟨⟨0, 0⟩, none, some (nestTree depth)⟩]

theorem map?_nestJson (depth room : Nat) :
    map? (3 * depth + room + 1) (nestJson depth (tokenJson none)) = some (nestTree depth) := by
  induction depth with
  | zero =>
    rw [Nat.mul_zero, Nat.zero_add]
    rfl
  | succ depth ih =>
    rw [show 3 * (depth + 1) + room + 1 = 3 * depth + room + 4 by omega]
    exact map?_nest ih

theorem embeds_nestTree {depth : Nat} {record : FlatRecord} (embeds : (nestTree depth).Embeds record) :
    record = tokenRecord := by
  induction depth with
  | zero =>
    cases embeds
    rfl
  | succ depth ih =>
    obtain _ | ⟨member, carried, deeper⟩ := embeds
    obtain rfl := List.mem_singleton.mp member
    cases carried
    exact ih deeper

theorem not_lacks_nestTree (depth : Nat) (url : Option String) : ¬ (nestTree depth).Lacks url := by
  induction depth with
  | zero => nofun
  | succ depth ih =>
    intro lacks
    obtain ⟨member, missing⟩ | ⟨member, carried, deeper⟩ := lacks
    · obtain rfl := List.mem_singleton.mp member
      cases missing
    · obtain rfl := List.mem_singleton.mp member
      cases carried
      exact ih deeper

theorem placed_nestTree (depth : Nat) : (nestTree depth).placed = [⟨0, 0, none⟩] := by
  induction depth with
  | zero => rfl
  | succ depth ih =>
    rw [nestTree, MapTree.placed, MapTree.placedSections, MapTree.placedSections, ih]
    rfl

theorem holds_nestText {table : Option Json} (writable : (tokenJson table).Writable) (depth : Nat) :
    Holds (nestText depth table) (nestJson depth (tokenJson table)) := by
  have spelled := (writable_nestJson writable depth).spells.padded
  rw [← String.toList_ofList (l := (nestJson depth (tokenJson table)).render)] at spelled
  cases depth with
  | zero => exact holds_of_spells spelled
  | succ depth => exact holds_of_spells spelled

theorem writable_tokenJson {table : Json} (writable : table.Writable) :
    (tokenJson (some table)).Writable := by
  simp [tokenJson, writable]

theorem exists_decode_nestText {depth : Nat} (fits : 3 * depth < nestingLimit) :
    ∃ map, SourceMap.decode (nestText depth none) = .ok map := by
  have holds : Holds (nestText depth none) (nestJson depth (tokenJson none)) :=
    holds_nestText (by simp [tokenJson]) depth
  obtain ⟨room, limit⟩ := Nat.exists_eq_add_of_lt fits
  have readable : ∀ record, (nestTree depth).Embeds record → ∃ map, record.decode = .ok map := by
    intro record embeds
    rw [embeds_nestTree embeds]
    exact ⟨_, rfl⟩
  have read : Layout.read (nestText depth none) = .ok (nestTree depth) := by
    rw [read_of_holds holds, limit, map?_nestJson]
  have fits : ∀ token ∈ (nestTree depth).placed, token.Fits := by
    rw [placed_nestTree]
    decide
  obtain ⟨map, decoded, _⟩ :=
    ((SourceMap.decode_indexed read readable).1 (not_lacks_nestTree depth)).1 fits
  exact ⟨map, decoded⟩

/-- Behind 42 sections there is room for a map, but for no more containers in it. -/
theorem SourceMap.decode_tooDeep :
    IsFunctionTable (.array []) ∧
      DropsTable (.array []) 42 (nestJson 42 (tokenJson (some (.array []))))
        (nestJson 42 (tokenJson none)) ∧
      Holds (nestText 42 (some (.array []))) (nestJson 42 (tokenJson (some (.array [])))) ∧
      Holds (nestText 42 none) (nestJson 42 (tokenJson none)) ∧
      SourceMap.decode (nestText 42 (some (.array []))) = .error .badJson ∧
      ∃ map, SourceMap.decode (nestText 42 none) = .ok map := by
  have isTable : IsFunctionTable (.array []) := .entries nofun
  have drops := dropsTable_nestJson (.array []) 42
  have writable : (Json.array []).Writable := by simp
  have holds := holds_nestText (writable_tokenJson writable) 42
  have refused := drops.readsAs isTable nestingLimit
  rw [if_neg (by decide)] at refused
  refine ⟨isTable, drops, holds, holds_nestText (by simp [tokenJson]) 42, ?_,
    exists_decode_nestText (by decide)⟩
  rw [SourceMap.decode, read_of_holds holds, refused]
  rfl

/-- An entry for a source without functions, and one whose mappings are no mappings. -/
def brokenTable : Json :=
  .array [.null, .array [.ofFields [("names", .array [.ofText "f"]), ("mappings", .ofText "!")]]]

theorem isFunctionTable_brokenTable : IsFunctionTable brokenTable := by
  refine .entries fun entry listed => ?_
  rcases List.mem_pair.mp listed with rfl | rfl
  · exact .null
  · refine .records fun record member => ?_
    obtain rfl := List.mem_singleton.mp member
    exact ⟨["f"], "!", rfl⟩

/-- The map of a section is read although the mappings of its functions cannot be. -/
theorem SourceMap.decode_functionTable_brokenTable :
    IsFunctionTable brokenTable ∧
      DropsTable brokenTable 1 (nestJson 1 (tokenJson (some brokenTable)))
        (nestJson 1 (tokenJson none)) ∧
      Holds (nestText 1 (some brokenTable)) (nestJson 1 (tokenJson (some brokenTable))) ∧
      Holds (nestText 1 none) (nestJson 1 (tokenJson none)) ∧
      SourceMap.decode (nestText 1 (some brokenTable)) = SourceMap.decode (nestText 1 none) ∧
      ∃ map, SourceMap.decode (nestText 1 (some brokenTable)) = .ok map := by
  have drops := dropsTable_nestJson brokenTable 1
  have writable : brokenTable.Writable := by simp [brokenTable, Json.Writable.null]
  have writable' : (tokenJson none).Writable := by simp [tokenJson]
  have holds := holds_nestText (writable_tokenJson writable) 1
  have holds' := holds_nestText writable' 1
  have same := (SourceMap.decode_functionTable isFunctionTable_brokenTable drops holds holds').1
    (.inl (by decide))
  refine ⟨isFunctionTable_brokenTable, drops, holds, holds', same.1, ?_⟩
  rw [same.1]
  exact exists_decode_nestText (by decide)

end SingleFile
