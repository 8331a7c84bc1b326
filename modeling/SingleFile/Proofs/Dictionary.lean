import Mathlib.Data.List.Induction
import Mathlib.Data.List.Perm.Basic
import Mathlib.Tactic.Common
import SingleFile.Dictionary

/-! # Dictionaries made of entries

Entries are inserted one by one, so a dictionary made of a list has under every key the value of the
last entry with that key, and nothing under a key without entries. It has as many entries as the list
has different keys.
-/

namespace SingleFile

section LastWhere

variable {κ κ' α : Type} {applies : κ → Prop} {entries : List (κ × α)} {key : κ} {value other : α}

/-- The value of the last entry of a list whose key meets a condition. -/
def LastWhere (applies : κ → Prop) (entries : List (κ × α)) (value : α) : Prop :=
  ∃ before key after, entries = before ++ (key, value) :: after ∧ applies key ∧
    ∀ later ∈ after, ¬ applies later.1

theorem not_lastWhere_nil : ¬ LastWhere applies [] value := by
  rintro ⟨before, key, after, split, -, -⟩
  cases before <;> cases split

/-- The last entry decides, unless its key does not meet the condition. -/
theorem lastWhere_concat_iff : LastWhere applies (entries ++ [(key, other)]) value ↔
    (applies key ∧ other = value) ∨ (¬ applies key ∧ LastWhere applies entries value) := by
  constructor
  · rintro ⟨before, found, after, split, applied, rest⟩
    rcases List.eq_nil_or_concat after with rfl | ⟨after, final, rfl⟩
    · obtain ⟨rfl, same⟩ := List.append_inj' split rfl
      cases same
      exact .inl ⟨applied, rfl⟩
    · rw [List.concat_eq_append, ← List.cons_append, ← List.append_assoc] at split
      obtain ⟨rfl, same⟩ := List.append_inj' split rfl
      cases same
      rw [List.concat_eq_append, List.forall_mem_append] at rest
      exact .inr ⟨rest.2 _ List.mem_cons_self, before, found, after, rfl, applied, rest.1⟩
  · rintro (⟨applied, rfl⟩ | ⟨skipped, before, found, after, rfl, applied, rest⟩)
    · exact ⟨entries, key, [], rfl, applied, fun _ none => absurd none List.not_mem_nil⟩
    · refine ⟨before, found, after ++ [(key, other)], ?_, applied, ?_⟩
      · rw [List.append_assoc, List.cons_append]
      · rw [List.forall_mem_append, List.forall_mem_singleton]
        exact ⟨rest, skipped⟩

/-- There is a last entry unless no entry meets the condition. -/
theorem exists_lastWhere_iff :
    (∃ value, LastWhere applies entries value) ↔ ∃ entry ∈ entries, applies entry.1 := by
  constructor
  · rintro ⟨value, before, key, after, rfl, applied, -⟩
    exact ⟨(key, value), List.mem_append_right _ List.mem_cons_self, applied⟩
  · intro listed
    induction entries using List.reverseRecOn with
    | nil => simp at listed
    | append_singleton rest entry ih =>
      by_cases applied : applies entry.1
      · exact ⟨entry.2, lastWhere_concat_iff.mpr (.inl ⟨applied, rfl⟩)⟩
      · obtain ⟨found, member, applies⟩ := listed
        rcases List.mem_append.mp member with member | final
        · obtain ⟨value, last⟩ := ih ⟨found, member, applies⟩
          exact ⟨value, lastWhere_concat_iff.mpr (.inr ⟨applied, last⟩)⟩
        · rw [List.mem_singleton.mp final] at applies
          exact absurd applies applied

/-- Entries that do not meet the condition make no difference. -/
theorem lastWhere_filter_iff [DecidablePred applies] :
    LastWhere applies (entries.filter (applies ·.1)) value ↔ LastWhere applies entries value := by
  induction entries using List.reverseRecOn with
  | nil => rfl
  | append_singleton rest entry ih =>
    rw [List.filter_append, List.filter_singleton]
    by_cases applied : applies entry.1
    · rw [decide_eq_true applied, cond_true, lastWhere_concat_iff, lastWhere_concat_iff, ih]
    · rw [decide_eq_false applied, cond_false, List.append_nil, ih, lastWhere_concat_iff]
      simp only [applied, false_and, not_false_eq_true, true_and, false_or]

/-- The condition may be read off keys that were translated. -/
theorem lastWhere_map_iff {translate : κ' → κ} {given : List (κ' × α)} :
    LastWhere applies (given.map (Prod.map translate id)) value ↔
      LastWhere (fun key => applies (translate key)) given value := by
  induction given using List.reverseRecOn with
  | nil => exact iff_of_false not_lastWhere_nil not_lastWhere_nil
  | append_singleton rest entry ih =>
    rw [List.map_append, List.map_singleton, Prod.map, lastWhere_concat_iff, ih,
      lastWhere_concat_iff, id]

end LastWhere

namespace Dictionary

variable {κ α : Type} [DecidableEq κ] {entries : List (κ × α)} {key : κ} {value : α}

theorem ofList_concat (entries : List (κ × α)) (key : κ) (value : α) :
    ofList (entries ++ [(key, value)]) = (ofList entries).insert key value := by
  rw [ofList, List.foldl_append]
  rfl

/-- A dictionary made of entries has under a key the value of the last entry with that key. -/
theorem find?_ofList_eq_some_iff :
    (ofList entries).find? key = some value ↔ LastWhere (· = key) entries value := by
  induction entries using List.reverseRecOn with
  | nil => exact iff_of_false nofun not_lastWhere_nil
  | append_singleton rest entry ih =>
    rw [ofList_concat, find?_insert, lastWhere_concat_iff]
    split <;> rename_i same
    · simp [same]
    · simp [same, ih]

theorem find?_ofList_eq_none_iff :
    (ofList entries).find? key = none ↔ ∀ entry ∈ entries, entry.1 ≠ key := by
  rw [Option.eq_none_iff_forall_ne_some]
  simp only [ne_eq, find?_ofList_eq_some_iff]
  rw [← not_exists, exists_lastWhere_iff]
  simp only [not_exists, not_and]

theorem isSome_find?_iff (dictionary : Dictionary κ α) :
    (dictionary.find? key).isSome ↔ key ∈ dictionary.entries.map (·.1) := by
  simp [find?, List.find?_isSome]

theorem mem_keys_ofList_iff :
    key ∈ (ofList entries).entries.map (·.1) ↔ key ∈ entries.map (·.1) := by
  rw [← isSome_find?_iff, Option.isSome_iff_ne_none, ne_eq, find?_ofList_eq_none_iff]
  simp

/-- A dictionary made of entries has as many entries as a list without repetitions has that lists the
same keys. -/
theorem size_ofList {keys : List κ} (nodup : keys.Nodup)
    (same : ∀ key, key ∈ keys ↔ key ∈ entries.map (·.1)) : (ofList entries).size = keys.length := by
  have perm : ((ofList entries).entries.map (·.1)).Perm keys :=
    (List.perm_ext_iff_of_nodup (ofList entries).keys_nodup nodup).mpr fun key =>
      mem_keys_ofList_iff.trans (same key).symm
  rw [size, ← perm.length_eq, List.length_map]

end Dictionary

end SingleFile
