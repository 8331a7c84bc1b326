import Mathlib.Data.List.DropRight
import SingleFile.Text.Path

/-! # What a base name is

A file name is a directory, a base name and separators. The directory is empty or ends with a separator,
the base name holds none and is only empty where there are no other characters. `isBaseName_iff` says
that every file name has one base name, and what may be put around a file name follows: a directory in
front and separators behind make no difference.
-/

namespace SingleFile.Text

theorem rdropWhile_append_of_pos {p : Char → Bool} {second : List Char} (all : ∀ c ∈ second, p c = true)
    (first : List Char) : (first ++ second).rdropWhile p = first.rdropWhile p := by
  rw [List.rdropWhile, List.reverse_append, List.dropWhile_append_of_pos (by simpa using all),
    List.rdropWhile]

theorem rtakeWhile_append_of_pos {p : Char → Bool} {second : List Char} (all : ∀ c ∈ second, p c = true)
    (first : List Char) : (first ++ second).rtakeWhile p = first.rtakeWhile p ++ second := by
  rw [List.rtakeWhile, List.reverse_append, List.takeWhile_append_of_pos (by simpa using all),
    List.reverse_append, List.reverse_reverse, List.rtakeWhile]

/-- A text of separators alone. -/
def OnlySeparators (text : String) : Prop :=
  ∀ c ∈ text.toList, isSeparator c = true

instance (text : String) : Decidable (OnlySeparators text) :=
  decidable_of_iff (text.toList.all isSeparator = true) List.all_eq_true

theorem onlySeparators_append_iff {first second : String} :
    OnlySeparators (first ++ second) ↔ OnlySeparators first ∧ OnlySeparators second := by
  simp only [OnlySeparators, String.toList_append, List.forall_mem_append]

theorem onlySeparators_empty : OnlySeparators "" := by
  simp [OnlySeparators]

/-- A text that is empty or ends with a separator. -/
def IsDirectory (text : String) : Prop :=
  ∀ c ∈ text.toList.getLast?, isSeparator c = true

instance (text : String) : Decidable (IsDirectory text) :=
  decidable_of_iff (text.toList.getLast?.all isSeparator = true) (Option.all_eq_true _ _)

theorem isDirectory_append_separator (text : String) {c : Char} (separates : isSeparator c = true) :
    IsDirectory (text ++ String.singleton c) := by
  intro last final
  rw [String.toList_append, String.toList_singleton, List.getLast?_concat] at final
  obtain rfl := Option.some.inj final
  exact separates

theorem IsDirectory.append {first second : String} (directory : IsDirectory first)
    (inner : IsDirectory second) : IsDirectory (first ++ second) := by
  intro last final
  rw [String.toList_append, List.getLast?_append, Option.mem_def, Option.or_eq_some_iff] at final
  obtain final | ⟨_, final⟩ := final
  · exact inner last final
  · exact directory last final

/-- What stands in a file name between a directory and separators, without a separator of its own. The
name is empty only where a file name has no other characters. -/
structure IsBaseName (fileName name : String) : Prop where
  bare : ∀ c ∈ name.toList, isSeparator c = false
  empty_iff : name = "" ↔ OnlySeparators fileName
  placed : ∃ directory separators, fileName = directory ++ name ++ separators ∧
    IsDirectory directory ∧ OnlySeparators separators

theorem baseName_eq (fileName : String) : baseName fileName =
    String.ofList ((fileName.toList.rdropWhile isSeparator).rtakeWhile (!isSeparator ·)) := by
  simp only [baseName, List.rdropWhile, List.rtakeWhile, List.reverse_reverse]

theorem baseName_eq_empty_iff {fileName : String} :
    baseName fileName = "" ↔ OnlySeparators fileName := by
  rw [baseName_eq, String.ofList_eq_empty_iff, List.rtakeWhile_eq_nil_iff, OnlySeparators,
    ← List.rdropWhile_eq_nil_iff]
  constructor
  · intro separates
    by_contra nonempty
    have last := List.rdropWhile_last_not isSeparator fileName.toList nonempty
    exact separates nonempty (by simp [last])
  · intro empty nonempty
    exact absurd empty nonempty

theorem isBaseName_baseName (fileName : String) : IsBaseName fileName (baseName fileName) where
  bare := by
    intro c member
    rw [baseName_eq, String.toList_ofList] at member
    simpa using List.mem_rtakeWhile_imp member
  empty_iff := baseName_eq_empty_iff
  placed := by
    let stem := fileName.toList.rdropWhile isSeparator
    refine ⟨String.ofList (stem.rdropWhile (!isSeparator ·)),
      String.ofList (fileName.toList.rtakeWhile isSeparator), ?_, ?_, ?_⟩
    · rw [baseName_eq, ← String.ofList_append, List.rdropWhile_append_rtakeWhile,
        ← String.ofList_append, List.rdropWhile_append_rtakeWhile, String.ofList_toList]
    · intro c last
      rw [String.toList_ofList] at last
      obtain ⟨nonempty, rfl⟩ := List.mem_getLast?_eq_getLast last
      simpa using List.rdropWhile_last_not _ stem nonempty
    · intro c member
      rw [String.toList_ofList] at member
      exact List.mem_rtakeWhile_imp member

/-- A file name has no other base name. -/
theorem IsBaseName.baseName_eq {fileName name : String} (given : IsBaseName fileName name) :
    baseName fileName = name := by
  by_cases empty : name = ""
  · rw [empty, baseName_eq_empty_iff, ← given.empty_iff, empty]
  · obtain ⟨directory, separators, rfl, isDirectory, only⟩ := given.placed
    have named : name.toList ≠ [] := fun none => empty (String.toList_eq_nil_iff.mp none)
    -- Trimming the separators stops at the last character of the name, and the name at the directory.
    have stem : (directory.toList ++ name.toList).rdropWhile isSeparator =
        directory.toList ++ name.toList := by
      refine List.rdropWhile_eq_self_iff.mpr fun nonempty => ?_
      rw [List.getLast_append_of_ne_nil _ named, given.bare _ (List.getLast_mem named)]
      exact Bool.false_ne_true
    have start : directory.toList.rtakeWhile (!isSeparator ·) = [] := by
      refine List.rtakeWhile_eq_nil_iff.mpr fun nonempty => ?_
      simp [isDirectory _ (List.getLast?_eq_some_getLast nonempty)]
    rw [Text.baseName_eq, String.toList_append, String.toList_append, rdropWhile_append_of_pos only,
      stem, rtakeWhile_append_of_pos (fun c member => by simp [given.bare c member]), start,
      List.nil_append, String.ofList_toList]

theorem isBaseName_iff {fileName name : String} :
    IsBaseName fileName name ↔ baseName fileName = name :=
  ⟨IsBaseName.baseName_eq, fun same => same ▸ isBaseName_baseName fileName⟩

/-- A base name is its own base name. -/
theorem baseName_baseName (fileName : String) : baseName (baseName fileName) = baseName fileName := by
  have bare := (isBaseName_baseName fileName).bare
  refine isBaseName_iff.mp ⟨bare, ⟨fun empty => empty ▸ onlySeparators_empty, fun only => ?_⟩,
    "", "", by simp, by simp [IsDirectory], onlySeparators_empty⟩
  refine String.toList_eq_nil_iff.mp (List.eq_nil_iff_forall_not_mem.mpr fun c member => ?_)
  exact Bool.false_ne_true ((bare c member).symm.trans (only c member))

/-- The directory of a file name does not matter to its base name. -/
theorem baseName_append_of_isDirectory {directory fileName : String} (outer : IsDirectory directory)
    (named : ¬ OnlySeparators fileName) : baseName (directory ++ fileName) = baseName fileName := by
  obtain ⟨bare, empty_iff, inner, separators, parts, isDirectory, only⟩ := isBaseName_baseName fileName
  refine isBaseName_iff.mp ⟨bare, ?_, directory ++ inner, separators, ?_, outer.append isDirectory, only⟩
  · rw [empty_iff, onlySeparators_append_iff]
    simp only [named, and_false]
  · conv_lhs => rw [parts]
    simp only [String.append_assoc]

/-- Nor do separators behind it. -/
theorem baseName_append_of_onlySeparators {separators : String} (only : OnlySeparators separators)
    (fileName : String) : baseName (fileName ++ separators) = baseName fileName := by
  obtain ⟨bare, empty_iff, directory, inner, parts, isDirectory, onlyInner⟩ :=
    isBaseName_baseName fileName
  refine isBaseName_iff.mp ⟨bare, ?_, directory, inner ++ separators, ?_, isDirectory,
    onlySeparators_append_iff.mpr ⟨onlyInner, only⟩⟩
  · rw [empty_iff, onlySeparators_append_iff, and_iff_left only]
  · conv_lhs => rw [parts]
    rw [String.append_assoc]

end SingleFile.Text
