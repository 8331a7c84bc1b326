import SingleFile.Proofs.SourceMap.DocumentMap

/-! # What keeps a document from having a map

A map cannot be put together if the script's own map cannot be read, or else if the render function
or its template stands on line zero. Nothing else fails as long as the lines of a script without a
map can be numbered.
-/

namespace SingleFile

/-- What is wrong with leading a line to a line: the first of the two that is zero. -/
inductive ZeroLine (generated original : UInt32) : MapError → Prop
  | generated (zero : generated = 0) : ZeroLine generated original (.lineZero .generated)
  | original (started : generated ≠ 0) (zero : original = 0) :
      ZeroLine generated original (.lineZero .original)

theorem MapBuilder.add_lineStart_eq_error_iff {builder : MapBuilder} {generated original : UInt32}
    {cause : MapError} :
    builder.add (.lineStart generated) (.lineStart original) none = .error cause ↔
      ZeroLine generated original cause := by
  constructor
  · intro failure
    by_cases first : generated = 0
    · obtain rfl : .lineZero .generated = cause := by
        simpa [add, Position.toPoint?, Position.lineStart, first] using failure
      exact .generated first
    · by_cases second : original = 0
      · obtain rfl : .lineZero .original = cause := by
          simpa [add, Position.toPoint?, Position.lineStart, first, second] using failure
        exact .original first second
      · have added : builder.add (.lineStart generated) (.lineStart original) none = .ok _ :=
          add_lineStart_eq_ok_iff.mpr ⟨⟨first, second⟩, rfl⟩
        cases added.symm.trans failure
  · intro fault
    cases fault with
    | generated zero => simp [add, Position.toPoint?, Position.lineStart, zero]
    | original started zero => simp [add, Position.toPoint?, Position.lineStart, started, zero]

theorem zeroLine_generated_iff {generated original : UInt32} :
    ZeroLine generated original (.lineZero .generated) ↔ generated = 0 :=
  ⟨fun fault => by cases fault; assumption, .generated⟩

theorem zeroLine_original_iff {generated original : UInt32} :
    ZeroLine generated original (.lineZero .original) ↔ generated ≠ 0 ∧ original = 0 :=
  ⟨fun fault => by cases fault; exact ⟨‹_›, ‹_›⟩, fun both => .original both.1 both.2⟩

theorem ZeroLine.exists_side {generated original : UInt32} {cause : MapError}
    (fault : ZeroLine generated original cause) : ∃ side, cause = .lineZero side := by
  cases fault with
  | generated => exact ⟨_, rfl⟩
  | original => exact ⟨_, rfl⟩

/-- Adding lines fails at a line zero or not at all. -/
theorem MapBuilder.exists_side_of_addLines {original : UInt32 → UInt32} {count : Nat} {line : UInt32}
    {builder : MapBuilder} {cause : MapError}
    (failure : addLines original count line builder = .error cause) :
    ∃ side, cause = .lineZero side := by
  induction count generalizing line builder with
  | zero => cases failure
  | succ count ih =>
    rw [addLines, Except.bind_eq_error_iff] at failure
    rcases failure with failure | ⟨_, _, later⟩
    · exact (add_lineStart_eq_error_iff.mp failure).exists_side
    · exact ih later

namespace DocumentMap

variable {script : Option Script} {render : LineRange} {templateLine : UInt32}

/-- A script's own map cannot be read. -/
def MapUnreadable (script : Option Script) (fault : DecodeError) : Prop :=
  ∃ given map, script = some given ∧ given.map = some map ∧ SourceMap.decode map = .error fault

theorem scriptPart_eq_error_iff {source code : String} {map external : Option String}
    (few : LinesFit (some ⟨code, map, external⟩)) {cause : MapError} :
    scriptPart source code map = .error cause ↔
      ∃ fault, MapUnreadable (some ⟨code, map, external⟩) fault ∧ cause = .malformed fault := by
  cases map with
  | none =>
    have part : scriptPart source code none = .ok _ :=
      (scriptPart_eq_ok_iff external).mpr ⟨few, _, scriptEntries_unmapped code external, rfl⟩
    simp [part, MapUnreadable]
  | some map =>
    simp only [scriptPart, Except.mapError_eq_error_iff, Except.map_eq_error_iff]
    constructor
    · rintro ⟨fault, unread, rfl⟩
      exact ⟨fault, ⟨_, map, rfl, rfl, unread⟩, rfl⟩
    · rintro ⟨fault, ⟨_, _, given, own, unread⟩, rfl⟩
      cases given
      cases own
      exact ⟨fault, unread, rfl⟩

theorem exists_scriptPart_iff {source code : String} {map external : Option String}
    (few : LinesFit (some ⟨code, map, external⟩)) :
    (∃ builder, scriptPart source code map = .ok builder) ↔
      ∀ fault, ¬ MapUnreadable (some ⟨code, map, external⟩) fault := by
  rw [Except.exists_eq_ok_iff]
  constructor
  · intro succeeds fault unreadable
    exact succeeds _ ((scriptPart_eq_error_iff few).mpr ⟨fault, unreadable, rfl⟩)
  · intro readable cause failed
    obtain ⟨fault, unreadable, _⟩ := (scriptPart_eq_error_iff few).mp failed
    exact readable fault unreadable

/-- A render part fails on its first line or not at all. -/
theorem renderPart_eq_error_iff {builder : MapBuilder} {cause : MapError} :
    renderPart render templateLine builder = .error cause ↔
      render.first.toNat < render.stop.toNat ∧ ZeroLine render.first templateLine cause := by
  have started (nonempty : render.first.toNat < render.stop.toNat) :
      ∃ count, render.size = count + 1 :=
    Nat.exists_eq_succ_of_ne_zero (Nat.sub_ne_zero_of_lt nonempty)
  constructor
  · intro failure
    have broken : ¬ RenderFits none render templateLine := by
      intro fits
      cases ((renderPart_eq_ok_iff rfl).mpr ⟨fits, rfl⟩).symm.trans failure
    have nonempty : render.first.toNat < render.stop.toNat := by
      by_contra empty
      exact broken fun _ nonempty => absurd nonempty empty
    obtain ⟨count, size⟩ := started nonempty
    rw [renderPart, size, MapBuilder.addLines, Except.bind_eq_error_iff] at failure
    rcases failure with failure | ⟨_, added, _⟩
    · exact ⟨nonempty, MapBuilder.add_lineStart_eq_error_iff.mp failure⟩
    · exact absurd (fun _ _ => (MapBuilder.add_lineStart_eq_ok_iff.mp added).1) broken
  · rintro ⟨nonempty, fault⟩
    obtain ⟨count, size⟩ := started nonempty
    rw [renderPart, size, MapBuilder.addLines, Except.bind_eq_error_iff]
    exact .inl (MapBuilder.add_lineStart_eq_error_iff.mpr fault)

/-- Where no map is read, nothing is wrong but a line zero, however long the script is. -/
theorem exists_side_of_ofParts {documentText fileName : String} {cause : MapError}
    (unmapped : script.bind (·.map) = none)
    (failure : ofParts script documentText fileName render templateLine = .error cause) :
    ∃ side, cause = .lineZero side := by
  obtain _ | ⟨code, _, _ | content⟩ := script
  · simp only [ofParts, ScriptOrigin.of, Except.bind_eq_error_iff, Except.pure_ne_error, and_false,
      exists_false, or_false] at failure
    exact MapBuilder.exists_side_of_addLines failure
  · cases unmapped
    simp only [ofParts, ScriptOrigin.of, Except.bind_eq_error_iff, Except.pure_ne_error, and_false,
      exists_false, or_false] at failure
    rcases failure with failure | ⟨_, _, failure⟩
    · exact MapBuilder.exists_side_of_addLines failure
    · exact MapBuilder.exists_side_of_addLines failure
  · cases unmapped
    simp only [ofParts, ScriptOrigin.of, Except.bind_eq_error_iff, Except.pure_ne_error, and_false,
      exists_false, or_false] at failure
    exact MapBuilder.exists_side_of_addLines failure

/-- A map that cannot be read is reported first, and a line zero only where the render function is
mapped. -/
theorem ofParts_eq_error_iff {documentText fileName : String} {cause : MapError}
    (few : LinesFit script) :
    ofParts script documentText fileName render templateLine = .error cause ↔
      (∃ fault, MapUnreadable script fault ∧ cause = .malformed fault) ∨
        (∀ fault, ¬ MapUnreadable script fault) ∧ script.bind (·.external) = none ∧
          render.first.toNat < render.stop.toNat ∧ ZeroLine render.first templateLine cause := by
  obtain _ | ⟨code, own, _ | content⟩ := script
  · simp only [ofParts, ScriptOrigin.of, Except.bind_eq_error_iff, Except.pure_ne_error, and_false,
      exists_false, or_false, renderPart_eq_error_iff]
    simp [MapUnreadable]
  · have readable : (∃ builder, scriptPart (Text.baseName fileName) code own = .ok builder) ↔ _ :=
      exists_scriptPart_iff few
    simp only [ofParts, ScriptOrigin.of, Except.bind_eq_error_iff, Except.pure_ne_error, and_false,
      exists_false, or_false, scriptPart_eq_error_iff few, renderPart_eq_error_iff, exists_and_right,
      readable]
    simp
  · simp only [ofParts, ScriptOrigin.of, Except.bind_eq_error_iff, Except.pure_ne_error, and_false,
      exists_false, or_false, scriptPart_eq_error_iff few]
    simp

/-- There is a map or exactly one reason against it, looked for in this order: the script's own map
cannot be read, the render function starts on line zero, its template does. The last two count only
for a render function that is mapped and has lines, so behind an external script, or for a range that
is empty or reversed, the template may start on any line. -/
theorem ofParts_outcome (few : LinesFit script) (documentText fileName : String) :
    (∀ fault, ofParts script documentText fileName render templateLine = .error (.malformed fault) ↔
        MapUnreadable script fault) ∧
      (ofParts script documentText fileName render templateLine = .error (.lineZero .generated) ↔
        (∀ fault, ¬ MapUnreadable script fault) ∧ script.bind (·.external) = none ∧
          render.first = 0 ∧ 0 < render.stop) ∧
      (ofParts script documentText fileName render templateLine = .error (.lineZero .original) ↔
        (∀ fault, ¬ MapUnreadable script fault) ∧ script.bind (·.external) = none ∧
          (0 < render.first ∧ render.first < render.stop) ∧ templateLine = 0) ∧
      ((∃ map, ofParts script documentText fileName render templateLine = .ok map) ↔
        (∀ fault, ¬ MapUnreadable script fault) ∧ (script.bind (·.external) = none →
          render.first < render.stop → render.first ≠ 0 ∧ templateLine ≠ 0)) := by
  have failure (cause : MapError) :
      ofParts script documentText fileName render templateLine = .error cause ↔ _ :=
    ofParts_eq_error_iff few
  have positive : 0 < render.first ↔ render.first ≠ 0 := UInt32.pos_iff_ne_zero
  simp only [← UInt32.lt_iff_toNat_lt] at failure
  refine ⟨fun fault => ?malformed, ?generated, ?original, ?success⟩
  case malformed =>
    rw [failure]
    constructor
    · rintro (⟨_, unreadable, same⟩ | ⟨_, _, _, zero⟩)
      · cases same
        exact unreadable
      · obtain ⟨_, side⟩ := zero.exists_side
        cases side
    · exact fun unreadable => .inl ⟨fault, unreadable, rfl⟩
  case generated =>
    rw [failure, zeroLine_generated_iff]
    simp only [reduceCtorEq, and_false, exists_false, false_or]
    refine and_congr_right fun _ => and_congr_right fun _ => ?_
    constructor
    · rintro ⟨nonempty, zero⟩
      exact ⟨zero, zero ▸ nonempty⟩
    · rintro ⟨zero, nonempty⟩
      exact ⟨zero ▸ nonempty, zero⟩
  case original =>
    rw [failure, zeroLine_original_iff]
    simp only [reduceCtorEq, and_false, exists_false, false_or, positive]
    refine and_congr_right fun _ => and_congr_right fun _ => ?_
    constructor
    · rintro ⟨nonempty, started, zero⟩
      exact ⟨⟨started, nonempty⟩, zero⟩
    · rintro ⟨⟨started, nonempty⟩, zero⟩
      exact ⟨nonempty, started, zero⟩
  case success =>
    rw [Except.exists_eq_ok_iff]
    simp only [ne_eq, failure, not_or, not_and, not_exists]
    constructor
    · intro flawless
      have readable : ∀ fault, ¬ MapUnreadable script fault := fun fault unreadable =>
        (flawless (.malformed fault)).1 fault unreadable rfl
      refine ⟨readable, fun inside nonempty => ?_⟩
      have started : render.first ≠ 0 := fun zero =>
        (flawless _).2 readable inside nonempty (.generated zero)
      exact ⟨started, fun zero => (flawless _).2 readable inside nonempty (.original started zero)⟩
    · rintro ⟨readable, fits⟩ cause
      refine ⟨fun fault unreadable => absurd unreadable (readable fault), ?_⟩
      rintro - inside nonempty (zero | ⟨_, zero⟩)
      · exact (fits inside nonempty).1 zero
      · exact (fits inside nonempty).2 zero

/-- Three lines lead to a template on line zero. Given in reverse, the range has no lines and there is
a map. -/
theorem ofParts_outcome_templateZero :
    LinesFit (some ⟨"x\n", none, none⟩) ∧
      ofParts (some ⟨"x\n", none, none⟩) "doc" "/c/F.vue" ⟨3, 6⟩ 0 = .error (.lineZero .original) ∧
      ∃ map, ofParts (some ⟨"x\n", none, none⟩) "doc" "/c/F.vue" ⟨6, 3⟩ 0 = .ok map := by
  have few : LinesFit (some ⟨"x\n", none, none⟩) := by
    rintro given ⟨⟩ -
    decide +kernel
  have readable : ∀ fault, ¬ MapUnreadable (some ⟨"x\n", none, none⟩) fault := by
    simp [MapUnreadable]
  obtain ⟨-, -, original, -⟩ := @ofParts_outcome _ ⟨3, 6⟩ 0 few "doc" "/c/F.vue"
  obtain ⟨-, -, -, success⟩ := @ofParts_outcome _ ⟨6, 3⟩ 0 few "doc" "/c/F.vue"
  exact ⟨few, original.mpr ⟨readable, rfl, by decide, rfl⟩,
    success.mpr ⟨readable, fun _ nonempty => absurd nonempty (by decide)⟩⟩

end DocumentMap

end SingleFile
