import Mathlib.Algebra.Group.Nat.Defs
import Mathlib.Tactic.Common
import SingleFile.SourceMap.DocumentMap
import SingleFile.Proofs.SourceMap.Builder

/-! # What the map of a document says

The map of a document is the stable sort of two lists of entries. The script part is every token of
the script's own map, or one entry for each line of its code; the render part leads each line of the
render function to the template, and is left out behind an external script. `ofParts_eq_ok_iff` says
when there is a map and from which entries it is built, and all else is read off the built map.
-/

namespace SingleFile

namespace DocumentMap

/-- The text that the source of a map embeds: the file of an external script, or the document. -/
def embeddedText (script : Option Script) (documentText : String) : String :=
  (script.bind (·.external)).getD documentText

/-- The entries of a script: those of its own map, or one for each of its lines. -/
def scriptEntries : Option Script → Except DecodeError (List Entry)
  | none => .ok []
  | some ⟨_, some map, _⟩ => (SourceMap.decode map).map fun map => map.traces.map Trace.entry
  | some ⟨code, none, _⟩ => .ok <| (List.range (Text.lineCount code).toNat).map fun line =>
      ⟨⟨UInt32.ofNat line, 0⟩, some ⟨⟨UInt32.ofNat line, 0⟩, none⟩⟩

/-- The entries of a render function: one for each of its lines unless the script is external. -/
def renderEntries (script : Option Script) (render : LineRange) (templateLine : UInt32) :
    List Entry :=
  if (script.bind (·.external)).isSome then []
  else (List.range' render.first.toNat (render.stop.toNat - render.first.toNat)).map fun line =>
    ⟨⟨UInt32.ofNat (line - 1), 0⟩, some ⟨⟨templateLine - 1, 0⟩, none⟩⟩

/-- Behind an external script a render function has no entries. -/
theorem renderEntries_external {script : Option Script} {content : String}
    (outside : script.bind (·.external) = some content) (render : LineRange) (templateLine : UInt32) :
    renderEntries script render templateLine = [] := by
  rw [renderEntries, outside, Option.isSome_some, if_pos rfl]

/-- A script without a map must have few enough lines to number them. -/
def LinesFit (script : Option Script) : Prop :=
  ∀ given ∈ script, given.map = none → (Text.lines given.code).length < 2 ^ 32

/-- A render function that is mapped must not start on line zero, nor may its template. -/
def RenderFits (script : Option Script) (render : LineRange) (templateLine : UInt32) : Prop :=
  script.bind (·.external) = none → render.first.toNat < render.stop.toNat →
    render.first ≠ 0 ∧ templateLine ≠ 0

/-- The builder of a document's map. -/
def builderOf (script : Option Script) (documentText fileName : String) (entries : List Entry) :
    MapBuilder :=
  ⟨Text.baseName fileName, some (embeddedText script documentText), entries.toArray⟩

private theorem ofNat_last : (1 : UInt32) + UInt32.ofNat (2 ^ 32 - 1) = 0 := by decide

private theorem toNat_one_add {step : Nat} (below : step + 1 < 2 ^ 32) :
    (1 + UInt32.ofNat step).toNat = step + 1 := by
  rw [UInt32.toNat_add, UInt32.toNat_ofNat']
  change (1 + step % 2 ^ 32) % 2 ^ 32 = step + 1
  omega

/-- Lines numbered from one stay clear of zero as long as their numbers fit 32 bits. -/
private theorem lines_nonzero_iff {count : Nat} :
    (∀ step < count, (1 : UInt32) + UInt32.ofNat step ≠ 0) ↔ count < 2 ^ 32 := by
  constructor
  · intro nonzero
    by_contra many
    exact nonzero (2 ^ 32 - 1) (by omega) ofNat_last
  · intro few step below zero
    have value := toNat_one_add (show step + 1 < 2 ^ 32 by omega)
    rw [zero] at value
    simp at value

private theorem lineEntries_identity (count : Nat) :
    MapBuilder.lineEntries id 1 count = (List.range count).map fun line =>
      ⟨⟨UInt32.ofNat line, 0⟩, some ⟨⟨UInt32.ofNat line, 0⟩, none⟩⟩ := by
  apply List.map_congr_left
  intro line _
  simp only [id, Entry.ofLines, UInt32.add_comm 1, UInt32.add_sub_cancel]

theorem scriptEntries_unmapped (code : String) (external : Option String) :
    scriptEntries (some ⟨code, none, external⟩) =
      .ok (MapBuilder.lineEntries id 1 (Text.lineCount code).toNat) := by
  rw [lineEntries_identity, scriptEntries]

/-- A script without a map maps every line of its code to itself, if their numbers fit 32 bits. -/
theorem addLines_identity_eq_ok_iff {source code : String} {builder : MapBuilder} :
    MapBuilder.addLines id (Text.lines code).length 1 (.empty source) = .ok builder ↔
      (Text.lines code).length < 2 ^ 32 ∧ (MapBuilder.empty source).append
        ((List.range (Text.lineCount code).toNat).map fun line =>
          ⟨⟨UInt32.ofNat line, 0⟩, some ⟨⟨UInt32.ofNat line, 0⟩, none⟩⟩) = builder := by
  simp only [MapBuilder.addLines_eq_ok_iff, id, and_self, lines_nonzero_iff]
  apply and_congr_right
  intro few
  rw [lineEntries_identity, Text.lineCount_eq_length, UInt32.toNat_ofNat', Nat.mod_eq_of_lt few]

theorem scriptPart_eq_ok_iff {source code : String} {map : Option String} {builder : MapBuilder}
    (external : Option String) :
    scriptPart source code map = .ok builder ↔ LinesFit (some ⟨code, map, external⟩) ∧
      ∃ entries, scriptEntries (some ⟨code, map, external⟩) = .ok entries ∧
        (MapBuilder.empty source).append entries = builder := by
  cases map with
  | none =>
    rw [scriptPart, addLines_identity_eq_ok_iff]
    simp [LinesFit, scriptEntries]
  | some map =>
    simp only [scriptPart, Except.mapError_eq_ok_iff, Except.map_eq_ok_iff, scriptEntries]
    constructor
    · rintro ⟨decoded, read, rfl⟩
      refine ⟨fun given member missing => ?_, _, ⟨decoded, read, rfl⟩, ?_⟩
      · cases member
        cases missing
      · simp only [MapBuilder.append, MapBuilder.empty, MapBuilder.ofMap, Array.empty_append]
    · rintro ⟨_, entries, ⟨decoded, read, rfl⟩, rfl⟩
      refine ⟨decoded, read, ?_⟩
      simp only [MapBuilder.append, MapBuilder.empty, MapBuilder.ofMap, Array.empty_append]

private theorem toNat_first_add {render : LineRange} {step : Nat}
    (below : step < render.stop.toNat - render.first.toNat) :
    (render.first + UInt32.ofNat step).toNat = render.first.toNat + step := by
  have bound := render.stop.toNat_lt
  rw [UInt32.toNat_add, UInt32.toNat_ofNat']
  omega

/-- A script in the document leaves every line of the render function its entry. -/
theorem renderEntries_eq_lineEntries {script : Option Script}
    (inside : script.bind (·.external) = none) {render : LineRange}
    (start : render.first.toNat < render.stop.toNat → render.first ≠ 0) (templateLine : UInt32) :
    renderEntries script render templateLine =
      MapBuilder.lineEntries (fun _ => templateLine) render.first render.size := by
  rw [renderEntries, inside, MapBuilder.lineEntries, List.range'_eq_map_range]
  refine (List.map_map ..).trans (List.map_congr_left fun step member => ?_)
  have below : step < render.stop.toNat - render.first.toNat := List.mem_range.mp member
  have positive : render.first.toNat ≠ 0 := fun zero =>
    start (Nat.lt_of_sub_pos (Nat.zero_lt_of_lt below)) (UInt32.toNat_inj.mp zero)
  have before : render.first + UInt32.ofNat step - 1 =
      UInt32.ofNat (render.first.toNat + step - 1) := by
    have value := toNat_first_add below
    have bound := render.stop.toNat_lt
    apply UInt32.toNat_inj.mp
    rw [UInt32.toNat_sub_of_le _ _ (UInt32.le_iff_toNat_le.mpr (by rw [value]; change 1 ≤ _; omega)),
      value, UInt32.toNat_ofNat', Nat.mod_eq_of_lt (by omega)]
    rfl
  simp only [Entry.ofLines, Function.comp_apply, before]

/-- The render part is there unless some line of the render function, or its template, is zero. -/
theorem renderPart_eq_ok_iff {script : Option Script} (inside : script.bind (·.external) = none)
    {render : LineRange} {templateLine : UInt32} {builder result : MapBuilder} :
    renderPart render templateLine builder = .ok result ↔ RenderFits script render templateLine ∧
      builder.append (renderEntries script render templateLine) = result := by
  have nonzero : (∀ step < render.size, render.first + UInt32.ofNat step ≠ 0 ∧ templateLine ≠ 0) ↔
      RenderFits script render templateLine := by
    constructor
    · intro lines _ nonempty
      simpa using lines 0 (Nat.sub_pos_of_lt nonempty)
    · intro fits step below
      have start := fits inside (Nat.lt_of_sub_pos (Nat.zero_lt_of_lt below))
      refine ⟨fun zero => start.1 ?_, start.2⟩
      have value := toNat_first_add below
      rw [zero] at value
      exact UInt32.toNat_inj.mp (by simp at value ⊢; omega)
  rw [renderPart, MapBuilder.addLines_eq_ok_iff, nonzero]
  apply and_congr_right
  intro fits
  rw [renderEntries_eq_lineEntries inside fun nonempty => (fits inside nonempty).1]

private theorem append_setContent (script : Option Script) (documentText fileName : String)
    (first second : List Entry) :
    (((MapBuilder.empty (Text.baseName fileName)).append first).setContent
      (embeddedText script documentText)).append second =
        builderOf script documentText fileName (first ++ second) := by
  simp only [MapBuilder.append, MapBuilder.setContent, MapBuilder.empty, builderOf,
    List.append_toArray, List.nil_append]

/-- There is a map exactly if the script's own map can be read and every line can be numbered from
one, and then it is built from the script part followed by the render part. -/
theorem ofParts_eq_ok_iff {script : Option Script} {documentText fileName : String}
    {render : LineRange} {templateLine : UInt32} {map : DocumentMap} :
    ofParts script documentText fileName render templateLine = .ok map ↔
      LinesFit script ∧ RenderFits script render templateLine ∧
        ∃ entries, scriptEntries script = .ok entries ∧
          map = ⟨(builderOf script documentText fileName
            (entries ++ renderEntries script render templateLine)).build⟩ := by
  obtain none | ⟨code, own, none | content⟩ := script
  · have inside : (none : Option Script).bind (·.external) = none := rfl
    simp only [ofParts, ScriptOrigin.of, Except.bind_eq_ok_iff, Except.pure_eq_ok_iff,
      renderPart_eq_ok_iff inside]
    constructor
    · rintro ⟨_, ⟨fits, rfl⟩, rfl⟩
      exact ⟨by simp [LinesFit], fits, [], rfl, by rw [← append_setContent]; rfl⟩
    · rintro ⟨_, fits, entries, given, rfl⟩
      cases given
      exact ⟨_, ⟨fits, rfl⟩, by rw [← append_setContent]; rfl⟩
  · have inside : (some (Script.mk code own none)).bind (·.external) = none := rfl
    simp only [ofParts, ScriptOrigin.of, Except.bind_eq_ok_iff, Except.pure_eq_ok_iff,
      scriptPart_eq_ok_iff none, renderPart_eq_ok_iff inside]
    constructor
    · rintro ⟨_, ⟨few, entries, given, rfl⟩, _, ⟨fits, rfl⟩, rfl⟩
      exact ⟨few, fits, entries, given, by rw [← append_setContent]; rfl⟩
    · rintro ⟨few, fits, entries, given, rfl⟩
      exact ⟨_, ⟨few, entries, given, rfl⟩, _, ⟨fits, rfl⟩, by rw [← append_setContent]; rfl⟩
  · simp only [ofParts, ScriptOrigin.of, Except.bind_eq_ok_iff, Except.pure_eq_ok_iff,
      scriptPart_eq_ok_iff (some content)]
    have fits : RenderFits (some ⟨code, own, some content⟩) render templateLine := by
      intro inside
      cases inside
    rw [renderEntries_external rfl]
    constructor
    · rintro ⟨_, ⟨few, entries, given, rfl⟩, _, rfl, rfl⟩
      refine ⟨few, fits, entries, given, ?_⟩
      rw [← append_setContent, MapBuilder.append_nil]
      rfl
    · rintro ⟨few, _, entries, given, rfl⟩
      refine ⟨_, ⟨few, entries, given, rfl⟩, _, rfl, ?_⟩
      rw [← append_setContent, MapBuilder.append_nil]
      rfl

end DocumentMap

end SingleFile
