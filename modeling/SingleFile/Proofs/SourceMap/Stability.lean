import SingleFile.Proofs.SourceMap.DocumentMap
import SingleFile.Proofs.SourceMap.RoundTrip

/-! # A map put together again from its own text

Writing a map drops a token equal to the one before it, and so loses nothing that a second writing
would show: the table of names lists first uses, and the mappings text skips repeated tokens anyway.
So the map of a document, given back as the map of its script, leads to the same text again.
-/

namespace SingleFile

namespace Mappings

variable {line : UInt32} {cursor : Cursor} {last : Option Token}

/-- A token that comes twice in a row is written once. -/
theorem writeFrom_cons_self (token : Token) (rest : List Token) :
    writeFrom line cursor last (token :: token :: rest) =
      writeFrom line cursor last (token :: rest) := by
  have repeated (place : UInt32) (after : Cursor) (level : token.generated.line - place = 0) :
      writeFrom place after (some token) (token :: rest) =
        writeFrom place after (some token) rest := by
    rw [writeFrom, if_pos (by rw [level]; rfl), if_pos rfl]
  rw [writeFrom, writeFrom.eq_2 line cursor last token rest]
  split <;> rename_i steps
  · have level : token.generated.line - line = 0 := UInt32.toNat_inj.mp steps
    split <;> rename_i same
    · rw [same]
    · rw [repeated line _ level]
  · rw [repeated _ _ (UInt32.sub_self _)]

/-- What is written for tokens does not depend on what was written before them. -/
theorem writeFrom_cons_congr {first second : List Token} (token : Token)
    (same : ∀ line cursor last, writeFrom line cursor last first = writeFrom line cursor last second) :
    writeFrom line cursor last (token :: first) = writeFrom line cursor last (token :: second) := by
  simp only [writeFrom, same]

theorem writeFrom_destutter' (token : Token) (rest : List Token) :
    writeFrom line cursor last (rest.destutter' (· ≠ ·) token) =
      writeFrom line cursor last (token :: rest) := by
  induction rest generalizing token line cursor last with
  | nil => rfl
  | cons next rest ih =>
    by_cases repeated : token = next
    · subst repeated
      rw [List.destutter'_cons_neg _ (not_not_intro rfl), ih, writeFrom_cons_self]
    · rw [List.destutter'_cons_pos _ repeated]
      exact writeFrom_cons_congr token fun _ _ _ => ih next

/-- Repeated tokens leave no trace in the mappings text. -/
theorem write_destutter (tokens : List Token) :
    write (tokens.destutter (· ≠ ·)) = write tokens := by
  cases tokens with
  | nil => rfl
  | cons token rest => exact writeFrom_destutter' token rest

end Mappings

/-- Leaving out an element equal to the one before it leaves out no first use. -/
theorem SourceMap.table_filterMap_destutter' {α : Type} [DecidableEq α] (use : α → Option String)
    (entry : α) (rest : List α) :
    table ((rest.destutter' (· ≠ ·) entry).filterMap use) =
      table ((entry :: rest).filterMap use) := by
  simp only [table]
  -- the uses of the rest are those other than the first one, so the induction is on all of `use`
  induction rest generalizing entry use with
  | nil => rfl
  | cons next rest ih =>
    by_cases repeated : entry = next
    · subst repeated
      rw [List.destutter'_cons_neg _ (not_not_intro rfl), ih]
      cases used : use entry with
      | none => simp only [List.filterMap_cons, used]
      | some name => simp [used, List.eraseDups_cons]
    · rw [List.destutter'_cons_pos _ repeated, List.filterMap_cons,
        List.filterMap_cons (l := next :: rest)]
      cases used : use entry with
      | none => exact ih use next
      | some name =>
        simp only [List.eraseDups_cons, List.filter_filterMap, ih]

namespace MapBuilder

theorem nameTable_destutter (entries : List Entry) :
    nameTable (entries.destutter (· ≠ ·)) = nameTable entries := by
  cases entries with
  | nil => rfl
  | cons entry rest => exact SourceMap.table_filterMap_destutter' _ entry rest

/-- A builder with the entries of another one, less those equal to the one before, writes the same
text. -/
theorem encode_build_of_destutter {first second : MapBuilder} (source : first.source = second.source)
    (content : first.content = second.content)
    (entries : first.sorted = second.sorted.destutter (· ≠ ·)) :
    first.build.encode = second.build.encode := by
  have names : first.build.names = second.build.names := by
    rw [build, build, entries, nameTable_destutter]
  have tokens : first.build.tokens = second.build.tokens.destutter (· ≠ ·) := by
    rw [tokens_destutter, ← entries, ← names]
    rfl
  have mappings : Mappings.write first.build.tokens = Mappings.write second.build.tokens := by
    rw [tokens, Mappings.write_destutter]
  rw [SourceMap.encode, SourceMap.encode, toJson_build, toJson_build, written, written, source, content,
    names, mappings]

/-- What is read of a built map is in order already. -/
theorem sorted_reread (builder : MapBuilder) (source : String) (content : Option String) :
    MapBuilder.sorted ⟨source, content, (builder.reread.traces.map Trace.entry).toArray⟩ =
      builder.sorted.destutter (· ≠ ·) := by
  have ordered := builder.isStableSort_sorted.ordered.sublist (List.destutter_sublist (· ≠ ·) _)
  rw [← entries_reread] at ordered ⊢
  exact (isStableSort_sorted _).unique (.of_ordered ordered)

end MapBuilder

namespace DocumentMap

theorem renderEntries_empty (script : Option Script) (line templateLine : UInt32) :
    renderEntries script ⟨line, line⟩ templateLine = [] := by
  simp only [renderEntries, Nat.sub_self, List.range'_zero, List.map_nil, ite_self]

/-- A map whose names can be numbered with 32 bits is put together again from its own text. -/
theorem ofParts_encode_build (builder : MapBuilder) (numbered : builder.build.names.length ≤ 2 ^ 32)
    (code content fileName : String) (line templateLine : UInt32) :
    ofParts (some ⟨code, some builder.build.encode, none⟩) content fileName ⟨line, line⟩
        templateLine =
      .ok ⟨(MapBuilder.mk (Text.baseName fileName) (some content)
        (builder.reread.traces.map Trace.entry).toArray).build⟩ := by
  have read : scriptEntries (some ⟨code, some builder.build.encode, none⟩) =
      .ok (builder.reread.traces.map Trace.entry) := by
    rw [scriptEntries, builder.decode_encode numbered]
    rfl
  have few : LinesFit (some ⟨code, some builder.build.encode, none⟩) := by
    intro given member missing
    cases member
    cases missing
  have empty : RenderFits (some ⟨code, some builder.build.encode, none⟩) ⟨line, line⟩ templateLine :=
    fun _ nonempty => absurd nonempty (Nat.lt_irrefl _)
  refine ofParts_eq_ok_iff.mpr ⟨few, empty, _, read, ?_⟩
  rw [renderEntries_empty, List.append_nil]
  rfl

/-- The map of a document, given as the map of an inline script with the same document name and the
embedded text for the document, leads to a map with the very same text, whatever the code of the
script and wherever an empty render function stands. Its names are numbered with 32 bits, so there
are no more of them. -/
theorem encode_ofParts_encode {script : Option Script} {documentText fileName : String}
    {render : LineRange} {templateLine : UInt32} {map : DocumentMap}
    (success : ofParts script documentText fileName render templateLine = .ok map)
    (numbered : map.map.names.length ≤ 2 ^ 32) (code : String) (line otherLine : UInt32) :
    map.source? = some ⟨Text.baseName fileName, some (embeddedText script documentText)⟩ ∧
      ∃ again, ofParts (some ⟨code, some map.encode, none⟩) (embeddedText script documentText)
          fileName ⟨line, line⟩ otherLine = .ok again ∧
        again.encode = map.encode := by
  obtain ⟨_, _, entries, _, rfl⟩ := ofParts_eq_ok_iff.mp success
  refine ⟨rfl, _, ofParts_encode_build _ numbered code _ fileName line otherLine, ?_⟩
  apply MapBuilder.encode_build_of_destutter
  · rfl
  · rfl
  · exact MapBuilder.sorted_reread _ _ _

/-- A script from a file, whose map has a named token twice and an unsourced one behind it. -/
def repeatingScript : Script where
  code := "x\ny"
  map := some "\x7b\"sources\":[\"a\"],\"names\":[\"n\"],\"mappings\":\"AAAAA,AAAAA,E;AACA\"\x7d"
  external := some "file"

def repeatingEntries : List Entry :=
  [⟨⟨0, 0⟩, some ⟨⟨0, 0⟩, some "n"⟩⟩, ⟨⟨0, 0⟩, some ⟨⟨0, 0⟩, some "n"⟩⟩, ⟨⟨0, 2⟩, none⟩,
    ⟨⟨1, 0⟩, some ⟨⟨1, 0⟩, none⟩⟩]

theorem sorted_repeatingEntries (source : String) (content : Option String) :
    (MapBuilder.mk source content repeatingEntries.toArray).sorted = repeatingEntries := by
  have ordered : repeatingEntries.Pairwise fun first second => first.generated.le second.generated := by
    decide
  exact (MapBuilder.isStableSort_sorted _).unique (.of_ordered ordered)

/-- The repeated token, the unsourced one and the text of the file come back as they were written. -/
theorem encode_ofParts_repeatingScript :
    ∃ map again, ofParts (some repeatingScript) "doc" "/c/F.vue" ⟨3, 5⟩ 0 = .ok map ∧
      ofParts (some ⟨"other", some map.encode, none⟩) "file" "/c/F.vue" ⟨7, 7⟩ 0 = .ok again ∧
      again.encode = map.encode := by
  have read : scriptEntries (some repeatingScript) = .ok repeatingEntries := by decide +kernel
  have success : ofParts (some repeatingScript) "doc" "/c/F.vue" ⟨3, 5⟩ 0 = .ok _ :=
    ofParts_eq_ok_iff.mpr ⟨by simp [LinesFit, repeatingScript],
      fun inside => absurd inside (Option.some_ne_none "file"), _, read, rfl⟩
  have numbered : (MapBuilder.nameTable (builderOf (some repeatingScript) "doc" "/c/F.vue"
      (repeatingEntries ++ [])).sorted).length ≤ 2 ^ 32 := by
    rw [List.append_nil, builderOf, sorted_repeatingEntries]
    decide
  obtain ⟨_, again, found, same⟩ := encode_ofParts_encode success numbered "other" 7 0
  exact ⟨_, again, success, found, same⟩

end DocumentMap

end SingleFile
