import Mathlib.Logic.Function.Basic
import SingleFile.Json.Fields
import SingleFile.Proofs.Except

/-! # Records that differ in one field

If a field of a record is given another value, or is left out, then every other field is read as
before, and whatever made the record unreadable still does. This holds for both forms of a record, the
object and the array.
-/

namespace SingleFile.Json

variable {names : List String} {least : Nat} {name : String} {old new : Option Json}
  {members others before after : List (Option String × Json)} {value : Json}

/-- A record and another have the same fields, except that under one name the first gives `old` and the
second `new`; or neither can be read. -/
inductive DiffersAt (names : List String) (least : Nat) (name : String) (old new : Option Json)
    (record other : Json) : Prop
  | unreadable (first : fields? names least record = none) (second : fields? names least other = none)
  | readable (given : String → Option Json) (there : given name = old)
      (first : fields? names least record = some (names.map given))
      (second : fields? names least other = some (names.map (Function.update given name new)))

/-- One field of a record is replaced. The fields of an array have their names by their places. -/
inductive ReplacesField (names : List String) (name : String) (old new : Json) : Json → Json → Prop
  | object (before after : List (Option String × Json)) :
      ReplacesField names name old new (.object (before ++ (some name, old) :: after))
        (.object (before ++ (some name, new) :: after))
  | array (before after : List Json) (place : names[before.length]? = some name) :
      ReplacesField names name old new (.array (before ++ old :: after))
        (.array (before ++ new :: after))

theorem ReplacesField.right {record other old new : Json}
    (replaces : ReplacesField names name old new record other) :
    ReplacesField names name new new other other := by
  cases replaces with
  | object before after => exact .object before after
  | array before after place => exact .array before after place

theorem member?_of_absent (absent : ∀ member ∈ members, member.1 ≠ some name) :
    member? members name = some none := by
  have none : members.filter (·.1 = some name) = [] := by
    rw [List.filter_eq_nil_iff]
    exact fun member listed => by simpa using absent member listed
  rw [member?, none]

/-- A name that stands once among members gives its value. -/
theorem member?_of_once (absent : ∀ member ∈ before ++ after, member.1 ≠ some name) :
    member? (before ++ (some name, value) :: after) name = some (some value) := by
  have none : (before ++ after).filter (·.1 = some name) = [] := by
    rw [List.filter_eq_nil_iff]
    exact fun member listed => by simpa using absent member listed
  rw [List.filter_append, List.append_eq_nil_iff] at none
  rw [member?, List.filter_append, none.1, List.filter_cons_of_pos (by simp), none.2]
  rfl

/-- A name that stands more than once gives none. -/
theorem member?_of_repeated (repeated : ∃ member ∈ before ++ after, member.1 = some name) :
    member? (before ++ (some name, value) :: after) name = none := by
  obtain ⟨member, listed, same⟩ := repeated
  have given : member ∈ (before ++ after).filter (·.1 = some name) :=
    List.mem_filter.mpr ⟨listed, by simpa using same⟩
  have others : 0 < ((before ++ after).filter (·.1 = some name)).length :=
    List.length_pos_of_mem given
  have count : ((before ++ (some name, value) :: after).filter (·.1 = some name)).length =
      ((before ++ after).filter (·.1 = some name)).length + 1 := by
    rw [List.filter_append, List.filter_append, List.filter_cons_of_pos (by simp), List.length_append,
      List.length_append, List.length_cons, Nat.add_assoc]
  rw [member?]
  split
  · rename_i none
    rw [none, List.length_nil] at count
    omega
  · rename_i single
    rw [single, List.length_singleton] at count
    omega
  · rfl

theorem member?_of_ne {other : String} (different : other ≠ name) :
    member? (before ++ (some name, value) :: after) other = member? (before ++ after) other := by
  rw [member?, member?, List.filter_append, List.filter_append,
    List.filter_cons_of_neg (by simpa using different.symm)]

/-- A name among members that can be read has the value it stands with. -/
theorem eq_of_member? {given : Option Json} (listed : (some name, value) ∈ members)
    (read : member? members name = some given) : given = some value := by
  obtain ⟨before, after, rfl⟩ := List.append_of_mem listed
  by_cases repeated : ∃ member ∈ before ++ after, member.1 = some name
  · rw [member?_of_repeated repeated] at read
    cases read
  · rw [member?_of_once fun member listed same => repeated ⟨member, listed, same⟩] at read
    exact (Option.some.inj read).symm

theorem fields?_of_members {given : String → Option Json}
    (named : members.all (·.1.isSome) = true)
    (each : ∀ name ∈ names, member? members name = some (given name)) :
    fields? names least (.object members) = some (names.map given) := by
  rw [fields?, if_pos named, Option.mapM_eq_some_map each]

theorem fields?_of_broken (broken : ∃ name ∈ names, member? members name = none) :
    fields? names least (.object members) = none := by
  rw [fields?, Option.mapM_eq_none_iff.mpr broken, ite_self]

theorem member?_eq_join (whole : ¬ ∃ name ∈ names, member? members name = none) :
    ∀ name ∈ names, member? members name = some (member? members name).join := by
  intro name listed
  cases given : member? members name with
  | none => exact absurd ⟨name, listed, given⟩ whole
  | some value => rfl

/-- An object cannot be read, or each name that is asked for has one value or none. -/
theorem fields?_object (names : List String) (least : Nat)
    (members : List (Option String × Json)) :
    fields? names least (.object members) = none ∨
      ∃ given : String → Option Json, fields? names least (.object members) = some (names.map given) ∧
        ∀ name ∈ names, member? members name = some (given name) := by
  by_cases broken : ∃ name ∈ names, member? members name = none
  · exact .inl (fields?_of_broken broken)
  · have each := member?_eq_join broken
    by_cases named : members.all (·.1.isSome) = true
    · exact .inr ⟨_, fields?_of_members named each, each⟩
    · exact .inl (if_neg named)

/-- Two objects that agree on all other names differ at one name at most. -/
theorem differsAt_object (known : name ∈ names)
    (named : others.all (·.1.isSome) = members.all (·.1.isSome))
    (elsewhere : ∀ other, other ≠ name → member? others other = member? members other)
    (there : member? members name = none ∧ member? others name = none ∨
      member? members name = some old ∧ member? others name = some new) :
    DiffersAt names least name old new (.object members) (.object others) := by
  cases all : members.all (·.1.isSome) with
  | false =>
    rw [all] at named
    exact .unreadable (if_neg (by simp [all])) (if_neg (by simp [named]))
  | true =>
    rw [all] at named
    by_cases broken : ∃ other ∈ names, member? members other = none
    · refine .unreadable (fields?_of_broken broken) (fields?_of_broken ?_)
      obtain ⟨other, listed, failed⟩ := broken
      by_cases same : other = name
      · subst same
        obtain ⟨-, failed⟩ | ⟨success, -⟩ := there
        · exact ⟨other, listed, failed⟩
        · cases failed.symm.trans success
      · exact ⟨other, listed, (elsewhere other same).trans failed⟩
    · obtain ⟨failed, -⟩ | ⟨success, changed⟩ := there
      · exact absurd ⟨name, known, failed⟩ broken
      · have each := member?_eq_join broken
        refine .readable (fun other => (member? members other).join) (by rw [success]; rfl)
          (fields?_of_members all each) (fields?_of_members named fun other listed => ?_)
        by_cases same : other = name
        · rw [same, Function.update_self, changed]
        · rw [Function.update_of_ne same, elsewhere other same]
          exact each other listed

/-- Leaving out a field that is given once changes no other field. -/
theorem differsAt_erase (names : List String) (least : Nat) (value : Json) (known : name ∈ names)
    (once : ∀ member ∈ before ++ after, member.1 ≠ some name) :
    DiffersAt names least name (some value) none (.object (before ++ (some name, value) :: after))
      (.object (before ++ after)) := by
  refine differsAt_object known ?named (fun other different => (member?_of_ne different).symm)
    (.inr ⟨member?_of_once once, member?_of_absent once⟩)
  case named =>
    rw [List.all_append, List.all_append, List.all_cons, Option.isSome_some, Bool.true_and]

/-- The fields of an array have their values by the places of their names. -/
theorem fields?_array {items : List Json} (distinct : names.Nodup)
    (fits : least ≤ items.length ∧ items.length ≤ names.length) :
    fields? names least (.array items) = some (names.map fun name => items[names.idxOf name]?) := by
  rw [fields?, if_pos fits]
  refine congrArg some (List.ext_getElem ?_ fun place _ bound => ?_)
  · simp [fits.2]
  · rw [List.length_map] at bound
    rw [List.getElem_map, distinct.idxOf_getElem]
    by_cases given : place < items.length
    · simp [given]
    · rw [List.getElem_append_right (by simpa using given), List.getElem_replicate,
        List.getElem?_eq_none (Nat.le_of_not_lt given)]

theorem ReplacesField.differsAt {record other old new : Json}
    (replaces : ReplacesField names name old new record other) (least : Nat) (distinct : names.Nodup)
    (known : name ∈ names) : DiffersAt names least name (some old) (some new) record other := by
  cases replaces with
  | object before after =>
    refine differsAt_object known ?named
      (fun other different => (member?_of_ne different).trans (member?_of_ne different).symm) ?there
    case named => simp only [List.all_append, List.all_cons, Option.isSome_some]
    case there =>
      by_cases repeated : ∃ member ∈ before ++ after, member.1 = some name
      · exact .inl ⟨member?_of_repeated repeated, member?_of_repeated repeated⟩
      · have once : ∀ member ∈ before ++ after, member.1 ≠ some name :=
          fun member listed same => repeated ⟨member, listed, same⟩
        exact .inr ⟨member?_of_once once, member?_of_once once⟩
  | array before after place =>
    have length : (before ++ new :: after).length = (before ++ old :: after).length := by
      rw [List.length_append, List.length_append, List.length_cons, List.length_cons]
    by_cases fits : least ≤ (before ++ old :: after).length ∧
        (before ++ old :: after).length ≤ names.length
    · have first := fields?_array distinct fits
      have second := fields?_array distinct (show _ ∧ _ by rwa [← length] at fits)
      obtain ⟨bound, rfl⟩ := List.getElem?_eq_some_iff.mp place
      have changed : before ++ new :: after = (before ++ old :: after).set before.length new := by simp
      refine .readable _ ?there first (second.trans ?changed)
      case there => simp [distinct.idxOf_getElem]
      case changed =>
        refine congrArg some (List.map_congr_left fun other listed => ?_)
        by_cases same : other = names[before.length]
        · subst same
          simp [distinct.idxOf_getElem]
        · rw [Function.update_of_ne same, changed, List.getElem?_set_ne]
          intro equal
          exact same (by simp [equal])
    · exact .unreadable (if_neg fits) (if_neg (by rwa [length]))

end SingleFile.Json
