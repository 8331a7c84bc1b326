import Mathlib.Logic.Relation
import SingleFile.Proofs.Text.Lines
import SingleFile.Text.Path

/-! # Spellings of one place

A path may be respelled: a repeated slash is dropped, and so is an inner `.`, one at the end, or a slash
at the end. Two paths have the same components exactly when respelling leads from one to the other.
So nothing else is made equal: neither a leading `.` nor any `..` ever disappears.
-/

namespace SingleFile.Text.Path

/-- One step from a spelling of a path to a shorter one. -/
inductive Respells : String → String → Prop
  | slash (before after : String) : Respells (before ++ "//" ++ after) (before ++ "/" ++ after)
  | dot (before after : String) : Respells (before ++ "/./" ++ after) (before ++ "/" ++ after)
  | finalDot (before : String) : Respells (before ++ "/.") (before ++ "/")
  | finalSlash {path : String} (given : path ≠ "") : Respells (path ++ "/") path

/-- Two paths spell the same place. -/
def SamePlace : String → String → Prop :=
  Relation.EqvGen Respells

theorem SamePlace.trans {first second third : String} (left : SamePlace first second)
    (right : SamePlace second third) : SamePlace first third :=
  Relation.EqvGen.trans _ _ _ left right

theorem SamePlace.symm {first second : String} (same : SamePlace first second) :
    SamePlace second first :=
  Relation.EqvGen.symm _ _ same

theorem Respells.samePlace {first second : String} (respells : Respells first second) :
    SamePlace first second :=
  Relation.EqvGen.rel _ _ respells

/-- The names among pieces between slashes. -/
def namesOf (parts : List (List Char)) : List String :=
  (parts.filter (!isFiller ·)).map String.ofList

theorem namesOf_append (first second : List (List Char)) :
    namesOf (first ++ second) = namesOf first ++ namesOf second := by
  rw [namesOf, List.filter_append, List.map_append]
  rfl

/-- The components that what a path starts with and its pieces stand for. -/
def keyOf (start : List Char × List (List Char)) : Key :=
  ⟨start.1 == ['/'], start.1 == ['.'], namesOf start.2⟩

theorem key_eq (path : String) : key path = keyOf (splitStart path.toList) := rfl

theorem pieces_slash (first second : List Char) :
    pieces (· == '/') (first ++ '/' :: second) =
      pieces (· == '/') first ++ pieces (· == '/') second :=
  pieces_append_cons rfl first second

theorem splitStart_of_plain {path : List Char} (relative : path.head? ≠ some '/') (dot : path ≠ ['.'])
    (dotted : ∀ rest, path ≠ '.' :: '/' :: rest) : splitStart path = ([], pieces (· == '/') path) := by
  rw [splitStart]
  · rintro rest rfl
    exact relative rfl
  · exact dot
  · exact dotted

/-- What stands behind a slash adds its names to the components of a path that is not empty. -/
theorem keyOf_slash {path : List Char} (given : path ≠ []) (text : List Char) :
    keyOf (splitStart (path ++ '/' :: text)) =
      { keyOf (splitStart path) with
        names := (keyOf (splitStart path)).names ++ namesOf (pieces (· == '/') text) } := by
  by_cases rooted : path.head? = some '/'
  · obtain ⟨rest, rfl⟩ := List.head?_eq_some_iff.mp rooted
    rw [List.cons_append, splitStart, splitStart, pieces_slash]
    simp only [keyOf, namesOf_append]
  by_cases dot : path = ['.']
  · subst dot
    rfl
  by_cases dotted : ∃ rest, path = '.' :: '/' :: rest
  · obtain ⟨rest, rfl⟩ := dotted
    rw [List.cons_append, List.cons_append, splitStart, splitStart, ← List.cons_append, pieces_slash]
    simp only [keyOf, namesOf_append]
  · rw [splitStart_of_plain rooted dot (not_exists.mp dotted), splitStart_of_plain, pieces_slash]
    · simp only [keyOf, namesOf_append]
    · rwa [List.head?_append_of_ne_nil _ given]
    · intro same
      cases path with
      | nil => exact given rfl
      | cons c rest => simp at same
    · intro rest same
      rcases path with _ | ⟨c, _ | ⟨d, path⟩⟩
      · exact given rfl
      · cases same
        exact dot rfl
      · cases same
        exact dotted ⟨path, rfl⟩

/-- The names of a text that stands behind a slash. -/
def namesBehind (text : String) : List String :=
  namesOf (pieces (· == '/') text.toList)

theorem key_slash {path : String} (given : path ≠ "") (text : String) : key (path ++ "/" ++ text) =
    { key path with names := (key path).names ++ namesBehind text } := by
  have chars : path.toList ≠ [] := fun none => given (String.toList_eq_nil_iff.mp none)
  rw [key_eq, String.toList_append, String.toList_append, List.append_assoc]
  exact keyOf_slash chars text.toList

/-- Of what stands behind a slash only the names count. -/
theorem key_slash_congr (path : String) {text text' : String}
    (same : namesBehind text = namesBehind text') :
    key (path ++ "/" ++ text) = key (path ++ "/" ++ text') := by
  by_cases given : path = ""
  · subst given
    have root (text : String) : key ("" ++ "/" ++ text) = ⟨true, false, namesBehind text⟩ := by
      rw [String.empty_append, key_eq, String.toList_append]
      rfl
    rw [root, root, same]
  · rw [key_slash given, key_slash given, same]

theorem namesBehind_slash (text : String) : namesBehind ("/" ++ text) = namesBehind text := by
  rw [namesBehind, String.toList_append]
  rfl

theorem namesBehind_dot (text : String) : namesBehind ("./" ++ text) = namesBehind text := by
  rw [namesBehind, String.toList_append]
  rfl

/-- Respelling a path leaves its components alone. -/
theorem Respells.key_eq {first second : String} (respells : Respells first second) :
    key first = key second := by
  cases respells with
  | slash before after =>
    have split : before ++ "//" ++ after = before ++ "/" ++ ("/" ++ after) := by
      rw [String.append_assoc, String.append_assoc]
      rfl
    rw [split, key_slash_congr before (namesBehind_slash after)]
  | dot before after =>
    have split : before ++ "/./" ++ after = before ++ "/" ++ ("./" ++ after) := by
      rw [String.append_assoc, String.append_assoc]
      rfl
    rw [split, key_slash_congr before (namesBehind_dot after)]
  | finalDot before =>
    have split : before ++ "/." = before ++ "/" ++ "." := by
      rw [String.append_assoc]
      rfl
    have nameless : namesBehind "." = namesBehind "" := rfl
    rw [split, key_slash_congr before nameless, String.append_empty]
  | finalSlash given =>
    have nameless : namesBehind "" = [] := rfl
    have names := key_slash given ""
    rw [String.append_empty, nameless, List.append_nil] at names
    exact names

/-- The pieces of a path put together again. -/
def joined (parts : List (List Char)) : String :=
  String.ofList (joinWith '/' parts)

theorem joined_pieces (text : String) : joined (pieces (· == '/') text.toList) = text := by
  rw [joined, joinWith_pieces, String.ofList_toList]

theorem joined_cons (part : List Char) {parts : List (List Char)} (given : parts ≠ []) :
    joined (part :: parts) = String.ofList part ++ "/" ++ joined parts := by
  obtain ⟨next, rest, rfl⟩ := List.exists_cons_of_ne_nil given
  rw [joined, joinWith, ← List.singleton_append, String.ofList_append, String.ofList_append,
    String.append_assoc]
  · rfl
  · exact List.cons_ne_nil _ _

/-- A path with names put behind it; an empty path stands for the root. -/
def extend (path : String) : List String → String
  | [] => if path = "" then "/" else path
  | name :: names => extend (path ++ "/" ++ name) names

/-- One spelling for each place. -/
def spell (place : Key) : String :=
  if place.rooted then extend "" place.names
  else if place.dotted then extend "." place.names
  else match place.names with
    | [] => ""
    | name :: names => extend name names

theorem samePlace_extend_nil (path : String) : SamePlace (path ++ "/") (extend path []) := by
  rw [extend]
  split <;> rename_i empty
  · subst empty
    exact .refl _
  · exact (Respells.finalSlash empty).samePlace

theorem isFiller_iff {part : List Char} : isFiller part = true ↔ part = [] ∨ part = ['.'] := by
  rw [isFiller, Bool.or_eq_true, beq_iff_eq, beq_iff_eq]

/-- A filler behind a slash disappears, together with the slash in front of more pieces. -/
theorem samePlace_filler {part : List Char} (filler : isFiller part = true) (path rest : String) :
    SamePlace (path ++ "/" ++ String.ofList part) (path ++ "/") ∧
      SamePlace (path ++ "/" ++ (String.ofList part ++ "/" ++ rest)) (path ++ "/" ++ rest) := by
  rcases isFiller_iff.mp filler with rfl | rfl
  · have doubled : path ++ "/" ++ (String.ofList [] ++ "/" ++ rest) = path ++ "//" ++ rest := by
      simp only [String.append_assoc]
      rfl
    rw [doubled, String.ofList_nil, String.append_empty]
    exact ⟨.refl _, (Respells.slash path rest).samePlace⟩
  · have final : path ++ "/" ++ String.ofList ['.'] = path ++ "/." := by
      rw [String.append_assoc]
      rfl
    have inner : path ++ "/" ++ (String.ofList ['.'] ++ "/" ++ rest) = path ++ "/./" ++ rest := by
      simp only [String.append_assoc]
      rfl
    rw [final, inner]
    exact ⟨(Respells.finalDot path).samePlace, (Respells.dot path rest).samePlace⟩

theorem namesOf_filler {part : List Char} (filler : isFiller part = true) (rest : List (List Char)) :
    namesOf (part :: rest) = namesOf rest := by
  rw [namesOf, List.filter_cons_of_neg (by simp [filler])]
  rfl

theorem namesOf_name {part : List Char} (name : ¬ isFiller part = true) (rest : List (List Char)) :
    namesOf (part :: rest) = String.ofList part :: namesOf rest := by
  rw [namesOf, List.filter_cons_of_pos (by simp [name])]
  rfl

/-- Pieces behind a slash are respelled to their names. -/
theorem samePlace_extend {parts : List (List Char)} (given : parts ≠ []) (path : String) :
    SamePlace (path ++ "/" ++ joined parts) (extend path (namesOf parts)) := by
  induction parts generalizing path with
  | nil => exact absurd rfl given
  | cons part rest ih =>
    by_cases filler : isFiller part = true
    · rw [namesOf_filler filler]
      cases rest with
      | nil => exact (samePlace_filler filler path "").1.trans (samePlace_extend_nil path)
      | cons next others =>
        rw [joined_cons part (List.cons_ne_nil _ _)]
        exact (samePlace_filler filler path _).2.trans (ih (List.cons_ne_nil _ _) path)
    · rw [namesOf_name filler, extend]
      cases rest with
      | nil =>
        have nonempty : path ++ "/" ++ String.ofList part ≠ "" := by simp
        rw [namesOf, List.filter_nil, List.map_nil, extend, if_neg nonempty]
        exact .refl _
      | cons next others =>
        rw [joined_cons part (List.cons_ne_nil _ _), ← String.append_assoc, ← String.append_assoc]
        exact ih (List.cons_ne_nil _ _) _

/-- A path that starts with a name is a spelling of its names. -/
theorem samePlace_names {part : List Char} (name : ¬ isFiller part = true)
    (rest : List (List Char)) :
    SamePlace (joined (part :: rest)) (spell ⟨false, false, namesOf (part :: rest)⟩) := by
  have spelled : spell ⟨false, false, namesOf (part :: rest)⟩ =
      extend (String.ofList part) (namesOf rest) := by
    rw [namesOf_name name]
    rfl
  rw [spelled]
  cases rest with
  | nil =>
    have given : String.ofList part ≠ "" := fun empty =>
      name (isFiller_iff.mpr (.inl (String.ofList_eq_empty_iff.mp empty)))
    have path : extend (String.ofList part) (namesOf []) = joined [part] := if_neg given
    rw [path]
    exact .refl _
  | cons next others =>
    rw [joined_cons part (List.cons_ne_nil _ _)]
    exact samePlace_extend (List.cons_ne_nil _ _) _

theorem samePlace_behind (base : String) {path : String} {rest : List Char}
    (chars : path.toList = base.toList ++ '/' :: rest) :
    SamePlace path (extend base (namesOf (pieces (· == '/') rest))) := by
  have split : path = base ++ "/" ++ joined (pieces (· == '/') rest) := by
    rw [joined, joinWith_pieces, ← String.toList_inj, chars]
    simp
  rw [split]
  exact samePlace_extend (pieces_ne_nil _ _) base

/-- A path that starts neither with a slash nor with a dot component starts with a name, unless it is
empty. -/
theorem not_isFiller_first {path first : List Char} {others : List (List Char)} (given : path ≠ [])
    (relative : path.head? ≠ some '/') (dot : path ≠ ['.']) (dotted : ∀ rest, path ≠ '.' :: '/' :: rest)
    (cut : pieces (· == '/') path = first :: others) : ¬ isFiller first = true := by
  intro filler
  have whole := joinWith_pieces '/' path
  rw [cut] at whole
  rcases isFiller_iff.mp filler with rfl | rfl
  · cases others with
    | nil => exact given whole.symm
    | cons next others => exact relative (by rw [← whole]; rfl)
  · cases others with
    | nil => exact dot whole.symm
    | cons next others => exact dotted _ whole.symm

/-- Every path is a spelling of the place that its components name. -/
theorem samePlace_spell (path : String) : SamePlace path (spell (key path)) := by
  by_cases rooted : path.toList.head? = some '/'
  · obtain ⟨rest, chars⟩ := List.head?_eq_some_iff.mp rooted
    have spelled := samePlace_behind "" chars
    rwa [key_eq, chars]
  by_cases dot : path.toList = ['.']
  · obtain rfl : path = "." := String.toList_inj.mp dot
    exact .refl _
  by_cases dotted : ∃ rest, path.toList = '.' :: '/' :: rest
  · obtain ⟨rest, chars⟩ := dotted
    have spelled := samePlace_behind "." chars
    rwa [key_eq, chars]
  by_cases empty : path.toList = []
  · obtain rfl : path = "" := String.toList_inj.mp empty
    exact .refl _
  obtain ⟨first, others, cut⟩ := List.exists_cons_of_ne_nil (pieces_ne_nil (· == '/') path.toList)
  have name := not_isFiller_first empty rooted dot (not_exists.mp dotted) cut
  have spelled := samePlace_names name others
  rw [← cut, joined_pieces] at spelled
  rwa [key_eq, splitStart_of_plain rooted dot (not_exists.mp dotted)]

/-- Paths have the same components exactly when respelling leads from one to the other. -/
theorem key_eq_key_iff {first second : String} : key first = key second ↔ SamePlace first second := by
  constructor
  · intro same
    have spelled := samePlace_spell second
    rw [← same] at spelled
    exact (samePlace_spell first).trans spelled.symm
  · intro same
    induction same with
    | rel _ _ respells => exact respells.key_eq
    | refl _ => rfl
    | symm _ _ _ ih => exact ih.symm
    | trans _ _ _ _ _ left right => exact left.trans right

end SingleFile.Text.Path
