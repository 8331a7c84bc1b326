/-! # Dictionaries

A dictionary holds one value per key and keeps the keys in the order of their first insertion.
Inserting under a key that is present replaces its value.
-/

namespace SingleFile

structure Dictionary (κ α : Type) where
  entries : List (κ × α)
  keys_nodup : (entries.map (·.1)).Nodup

namespace Dictionary

variable {κ α : Type} [DecidableEq κ]

/-- Puts a value under a key, in the place of the key's entry or at the end. -/
def place (key : κ) (value : α) : List (κ × α) → List (κ × α)
  | [] => [(key, value)]
  | entry :: rest =>
    if entry.1 = key then (key, value) :: rest else entry :: place key value rest

private theorem mem_keys_place {key other : κ} {value : α} {entries : List (κ × α)} :
    other ∈ (place key value entries).map (·.1) ↔ other = key ∨ other ∈ entries.map (·.1) := by
  induction entries with
  | nil => simp [place]
  | cons entry rest ih =>
    rw [place]
    split <;> rename_i same
    · subst same
      simp
    · rw [List.map_cons, List.mem_cons, ih, List.map_cons, List.mem_cons]
      exact or_left_comm

private theorem keys_place_nodup {key : κ} {value : α} {entries : List (κ × α)}
    (nodup : (entries.map (·.1)).Nodup) : ((place key value entries).map (·.1)).Nodup := by
  induction entries with
  | nil => simp [place]
  | cons entry rest ih =>
    rw [List.map_cons, List.nodup_cons] at nodup
    rw [place]
    split <;> rename_i same
    · subst same
      exact List.nodup_cons.mpr nodup
    · rw [List.map_cons, List.nodup_cons, mem_keys_place]
      exact ⟨fun member => member.elim same nodup.1, ih nodup.2⟩

def empty : Dictionary κ α :=
  ⟨[], List.nodup_nil⟩

def insert (dictionary : Dictionary κ α) (key : κ) (value : α) : Dictionary κ α :=
  ⟨place key value dictionary.entries, keys_place_nodup dictionary.keys_nodup⟩

def ofList (entries : List (κ × α)) : Dictionary κ α :=
  entries.foldl (fun dictionary entry => dictionary.insert entry.1 entry.2) empty

def find? (dictionary : Dictionary κ α) (key : κ) : Option α :=
  (dictionary.entries.find? (·.1 = key)).map (·.2)

def size (dictionary : Dictionary κ α) : Nat :=
  dictionary.entries.length

@[simp] theorem find?_empty (key : κ) : (empty : Dictionary κ α).find? key = none := rfl

/-- The value last inserted under a key is the one found; other keys keep theirs. -/
theorem find?_insert (dictionary : Dictionary κ α) (key other : κ) (value : α) :
    (dictionary.insert key value).find? other =
      if key = other then some value else dictionary.find? other := by
  obtain ⟨entries, nodup⟩ := dictionary
  simp only [find?, insert]
  clear nodup
  induction entries with
  | nil => by_cases same : key = other <;> simp [place, same]
  | cons entry rest ih =>
    rw [place]
    by_cases here : entry.1 = key
    · by_cases same : key = other <;> simp [here, same]
    · by_cases same : entry.1 = other
      · have apart : key ≠ other := fun equal => here (same.trans equal.symm)
        rw [if_neg here]
        simp [same, apart]
      · rw [if_neg here]
        simpa [same] using ih

end Dictionary

end SingleFile
