import SingleFile.Json.Printer
import SingleFile.Proofs.Json.Grammar

/-! # Values are read as written

The compact form is one way to spell a value. So a value whose strings are texts and whose numbers are
naturals is read back from it.
-/

namespace SingleFile.Json

/-- Values without unpaired surrogates whose numbers are naturals. -/
inductive Writable : Json → Prop
  | null : Writable .null
  | bool (value : Bool) : Writable (.bool value)
  | natural (value : Nat) : Writable (.ofNat value)
  | text (text : String) : Writable (.ofText text)
  | array {items : List Json} (each : ∀ item ∈ items, Writable item) : Writable (.array items)
  | object {members : List (Option String × Json)} (named : ∀ member ∈ members, member.1.isSome)
      (each : ∀ member ∈ members, Writable member.2) : Writable (.object members)

attribute [simp] Writable.natural Writable.text

@[simp] theorem writable_array_iff {items : List Json} :
    (Json.array items).Writable ↔ ∀ item ∈ items, item.Writable := by
  constructor
  · intro writable
    cases writable with
    | array each => exact each
  · exact .array

@[simp] theorem writable_ofFields_iff {fields : List (String × Json)} :
    (ofFields fields).Writable ↔ ∀ field ∈ fields, field.2.Writable := by
  constructor
  · intro writable field given
    cases writable with
    | object _ each => exact each _ (List.mem_map_of_mem given)
  · intro each
    apply Writable.object
    · intro member listed
      obtain ⟨field, _, rfl⟩ := List.mem_map.mp listed
      rfl
    · intro member listed
      obtain ⟨field, given, rfl⟩ := List.mem_map.mp listed
      exact each field given

private theorem digitChar_toNat {c : Char} (digit : c.isDigit = true) :
    Nat.digitChar (c.toNat - 48) = c := by
  have table : ∀ value < 10, Nat.digitChar value = Char.ofNat (value + 48) := by decide
  simp only [Char.isDigit, Bool.and_eq_true, decide_eq_true_eq] at digit
  have lower : 48 ≤ c.toNat := digit.1
  have upper : c.toNat ≤ 57 := digit.2
  rw [table _ (by omega), Nat.sub_add_cancel lower, Char.ofNat_toNat]

theorem isDigit_of_mem_toDigits {value : Nat} {c : Char} (member : c ∈ Nat.toDigits 10 value) :
    c.isDigit = true :=
  Nat.isDigit_of_mem_toDigits (by decide) (by decide) member

theorem render_ofNat (value : Nat) : (ofNat value).render = Nat.toDigits 10 value := by
  change ([] ++ ((Nat.toDigits 10 value).map fun c => c.toNat - 48).map Nat.digitChar ++ [] ++ [] :
    List Char) = _
  rw [List.nil_append, List.append_nil, List.append_nil, List.map_map]
  exact (List.map_congr_left fun c member =>
    digitChar_toNat (isDigit_of_mem_toDigits member)).trans (List.map_id _)

/-- Only zero has a leading zero. -/
theorem head?_toDigits {value : Nat} (positive : value ≠ 0) :
    (Nat.toDigits 10 value).head? ≠ some '0' := by
  induction value using Nat.strongRecOn with
  | ind value ih =>
    rw [Nat.toDigits_eq_if (by decide)]
    split
    · simpa using positive
    · rename_i large
      have shorter := ih (value / 10) (by omega) (by omega)
      cases digits : Nat.toDigits 10 (value / 10) with
      | nil => exact absurd digits Nat.toDigits_ne_nil
      | cons first rest => rwa [digits] at shorter

theorem spellsNumeral_toDigits (value : Nat) :
    SpellsNumeral ⟨false, (Nat.toDigits 10 value).map fun c => c.toNat - 48, [], none⟩
      (Nat.toDigits 10 value) := by
  have digits : SpellsDigits ((Nat.toDigits 10 value).map fun c => c.toNat - 48) (Nat.toDigits 10 value) :=
    ⟨Nat.toDigits_ne_nil, fun _ => isDigit_of_mem_toDigits, rfl⟩
  have unsigned := @SpellsUnsigned.mk false _ _ _ _ _ _ digits ?leading .none .none
  case leading =>
    intro digit more equal
    obtain ⟨first, tail, digits, zero, others⟩ := List.map_eq_cons_iff.mp equal
    obtain ⟨_, _, rfl, _, _⟩ := List.map_eq_cons_iff.mp others
    have char := digitChar_toNat (isDigit_of_mem_toDigits (digits ▸ List.mem_cons_self))
    rw [zero] at char
    have positive : value ≠ 0 := by
      rintro rfl
      cases digits
    exact head?_toDigits positive (by rw [digits, ← char]; rfl)
  rw [List.append_nil, List.append_nil] at unsigned
  exact .unsigned unsigned

theorem spellsText_renderText (text : String) : SpellsText (some text) (renderText (some text)) :=
  .text (Piece.spelled_map_escape text.toList) (standsFor_map_ofChar text.toList)

theorem Spells.padded {value : Json} {text : List Char} (spelled : Spells value text) :
    SpellsPadded value text := by
  have padded := SpellsPadded.mk isBlanks_nil spelled isBlanks_nil
  rwa [List.append_nil] at padded

/-- A member whose name is written without blanks around it. -/
theorem SpellsText.member {name : Option String} {value : Json} {key text : List Char}
    (named : SpellsText name key) (spelled : SpellsPadded value text) :
    SpellsMember (name, value) (key ++ ':' :: text) :=
  .mk isBlanks_nil named isBlanks_nil spelled

/-- Items are written one after the other, with the closing bracket behind the last. -/
theorem exists_spellsItems {item : Json} {items : List Json}
    (each : ∀ other ∈ item :: items, Spells other other.render) :
    ∃ text, SpellsItems (item :: items) text ∧ item.render ++ renderItems items = text ++ [']'] := by
  induction items generalizing item with
  | nil => exact ⟨item.render, .last (each item List.mem_cons_self).padded, rfl⟩
  | cons next items ih =>
    obtain ⟨first, others⟩ := List.forall_mem_cons.mp each
    obtain ⟨text, spelled, written⟩ := ih others
    refine ⟨item.render ++ ',' :: text, .more first.padded spelled, ?_⟩
    rw [renderItems, written, List.append_assoc]
    rfl

theorem exists_spellsMembers {name : Option String} {value : Json}
    {members : List (Option String × Json)}
    (each : ∀ member ∈ (name, value) :: members,
      SpellsText member.1 (renderText member.1) ∧ Spells member.2 member.2.render) :
    ∃ text, SpellsMembers ((name, value) :: members) text ∧
      renderText name ++ ':' :: (value.render ++ renderMembers members) = text ++ ['}'] := by
  induction members generalizing name value with
  | nil =>
    obtain ⟨named, spelled⟩ := each _ List.mem_cons_self
    refine ⟨_, .last (named.member spelled.padded), ?_⟩
    rw [renderMembers, List.append_assoc]
    rfl
  | cons next members ih =>
    obtain ⟨⟨named, spelled⟩, others⟩ := List.forall_mem_cons.mp each
    obtain ⟨text, more, written⟩ := ih others
    refine ⟨_, .more (named.member spelled.padded) more, ?_⟩
    rw [renderMembers, written]
    simp

/-- The written form of a value spells it. -/
theorem Writable.spells {value : Json} (writable : Writable value) : Spells value value.render := by
  induction writable with
  | null => exact .null
  | bool value =>
    cases value
    · exact .no
    · exact .yes
  | natural value =>
    rw [render_ofNat]
    exact .number (spellsNumeral_toDigits value)
  | text text => exact .string (spellsText_renderText text)
  | @array items each ih =>
    cases items with
    | nil => exact .emptyArray isBlanks_nil
    | cons item items =>
      obtain ⟨text, spelled, written⟩ := exists_spellsItems ih
      rw [render, written]
      exact .array spelled
  | @object members named each ih =>
    rcases members with _ | ⟨⟨name, value⟩, members⟩
    · exact .emptyObject isBlanks_nil
    · have texts : ∀ member ∈ (name, value) :: members,
          SpellsText member.1 (renderText member.1) ∧ Spells member.2 member.2.render := by
        intro member listed
        obtain ⟨text, given⟩ := Option.isSome_iff_exists.mp (named member listed)
        rw [given]
        exact ⟨spellsText_renderText text, ih member listed⟩
      obtain ⟨text, spelled, written⟩ := exists_spellsMembers texts
      rw [render, written]
      exact .object spelled

/-- A value is read back from its written form. -/
theorem parse?_render {value : Json} (writable : Writable value) : parse? value.render = some value :=
  parse?_of_spells writable.spells.padded

end SingleFile.Json
