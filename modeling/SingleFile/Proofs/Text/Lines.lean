import Mathlib.Algebra.Group.Nat.Defs
import Mathlib.Data.List.DropRight
import Mathlib.Tactic.Common
import SingleFile.Text.Lines

/-! # Lines of texts put together

Where two texts meet, the last piece of one and the first piece of the other become one piece, and
all other pieces stay as they are; so do lines. A text that is empty or ends with a break is
*closed*: what is appended to it starts a line of its own. Dropping the break at the end of a text
leaves its other lines alone but for carriage returns at their ends.
-/

namespace SingleFile.Text

/-- Where two texts meet, the last piece of the first and the first piece of the second are one. -/
theorem exists_pieces_append (isSeparator : Char → Bool) (first : List Char) :
    ∃ before last, pieces isSeparator first = before ++ [last] ∧
      ∀ {second head after}, pieces isSeparator second = head :: after →
        pieces isSeparator (first ++ second) = before ++ (last ++ head) :: after := by
  induction first with
  | nil => exact ⟨[], [], rfl, id⟩
  | cons c rest ih =>
    obtain ⟨before, last, cut, joined⟩ := ih
    by_cases separates : isSeparator c = true
    · refine ⟨[] :: before, last, ?_, fun given => ?_⟩
      · rw [pieces, if_pos separates, cut, List.cons_append]
      · rw [List.cons_append, pieces, if_pos separates, joined given, List.cons_append]
    · cases before with
      | nil =>
        refine ⟨[], c :: last, ?_, fun given => ?_⟩
        · rw [pieces, if_neg separates, cut]
          rfl
        · rw [List.cons_append, pieces, if_neg separates, joined given]
          rfl
      | cons piece others =>
        refine ⟨(c :: piece) :: others, last, ?_, fun given => ?_⟩
        · rw [pieces, if_neg separates, cut]
          rfl
        · rw [List.cons_append, pieces, if_neg separates, joined given]
          rfl

/-- A separator between two texts separates their pieces. -/
theorem pieces_append_cons {isSeparator : Char → Bool} {c : Char} (separates : isSeparator c = true)
    (first second : List Char) :
    pieces isSeparator (first ++ c :: second) =
      pieces isSeparator first ++ pieces isSeparator second := by
  obtain ⟨before, last, cut, joined⟩ := exists_pieces_append isSeparator first
  rw [joined (by rw [pieces, if_pos separates]), cut, List.append_nil, List.append_assoc]
  rfl

/-- A text has as many pieces in front of its last one as separators. -/
theorem length_of_pieces_eq {isSeparator : Char → Bool} {text last : List Char}
    {before : List (List Char)} (cut : pieces isSeparator text = before ++ [last]) :
    before.length = text.countP isSeparator := by
  have size := length_pieces isSeparator text
  rw [cut, List.length_append, List.length_singleton] at size
  exact Nat.add_right_cancel size

/-- In front of the last separator of the first text, two texts have the pieces of the first. -/
theorem getElem?_pieces_append_left {isSeparator : Char → Bool} {first : List Char} {index : Nat}
    (within : index < first.countP isSeparator) (second : List Char) :
    (pieces isSeparator (first ++ second))[index]? = (pieces isSeparator first)[index]? := by
  obtain ⟨before, last, cut, joined⟩ := exists_pieces_append isSeparator first
  obtain ⟨head, after, given⟩ := List.exists_cons_of_ne_nil (pieces_ne_nil isSeparator second)
  have size := length_of_pieces_eq cut
  rw [joined given, cut, List.getElem?_append_left (by omega), List.getElem?_append_left (by omega)]

/-- Behind the piece where two texts meet, they have the pieces of the second. -/
theorem getElem?_pieces_append_right (isSeparator : Char → Bool) (first second : List Char)
    {index : Nat} (behind : 0 < index) :
    (pieces isSeparator (first ++ second))[first.countP isSeparator + index]? =
      (pieces isSeparator second)[index]? := by
  obtain ⟨before, last, cut, joined⟩ := exists_pieces_append isSeparator first
  obtain ⟨head, after, given⟩ := List.exists_cons_of_ne_nil (pieces_ne_nil isSeparator second)
  have size := length_of_pieces_eq cut
  rw [joined given, given, ← size, List.getElem?_append_right (Nat.le_add_right _ _),
    Nat.add_sub_cancel_left]
  cases index with
  | zero => exact absurd behind (Nat.lt_irrefl 0)
  | succ index => rfl

/-- A text without separators extends the first piece of what follows it. -/
theorem pieces_append {isSeparator : Char → Bool} {first second piece : List Char}
    {others : List (List Char)} (plain : ∀ c ∈ first, isSeparator c = false)
    (cut : pieces isSeparator second = piece :: others) :
    pieces isSeparator (first ++ second) = (first ++ piece) :: others := by
  induction first with
  | nil => exact cut
  | cons head rest ih =>
    have tail := ih fun c member => plain c (List.mem_cons_of_mem _ member)
    rw [List.cons_append, pieces, if_neg (by simp [plain head List.mem_cons_self]), tail]
    rfl

/-- A line break between two texts separates their lines. -/
theorem lines_append_break (first second : String) :
    lines (first ++ "\n" ++ second) = lines first ++ lines second := by
  have cut := @pieces_append_cons (· == '\n') '\n' rfl first.toList second.toList
  simp only [lines, String.toList_append, List.append_assoc]
  change (pieces _ (first.toList ++ '\n' :: second.toList)).map _ = _
  rw [cut, List.map_append]

/-- A text without line feeds is one line, less a carriage return at its end. -/
theorem lines_of_unbroken {text : String} (unbroken : '\n' ∉ text.toList) :
    lines text = [String.ofList (withoutFinal '\r' text.toList)] := by
  have plain : ∀ c ∈ text.toList, (c == '\n') = false := by
    rintro c member
    exact beq_eq_false_iff_ne.mpr fun same => unbroken (same ▸ member)
  have cut := pieces_append plain (rfl : pieces (· == '\n') [] = [[]])
  rw [List.append_nil] at cut
  rw [lines, cut, List.map_singleton]

/-- A text without line feeds and carriage returns is its only line. -/
theorem lines_eq_singleton {text : String} (unbroken : '\n' ∉ text.toList) (bare : '\r' ∉ text.toList) :
    lines text = [text] := by
  have kept : withoutFinal '\r' text.toList = text.toList :=
    if_neg fun final => bare (List.mem_of_getLast? final)
  rw [lines_of_unbroken unbroken, kept, String.ofList_toList]

theorem getElem?_lines_append_left {first : String} {index : Nat}
    (within : index < first.toList.count '\n') (second : String) :
    (lines (first ++ second))[index]? = (lines first)[index]? := by
  simp only [lines, String.toList_append, List.getElem?_map, getElem?_pieces_append_left within]

theorem getElem?_lines_append_right (first second : String) {index : Nat} (behind : 0 < index) :
    (lines (first ++ second))[first.toList.count '\n' + index]? = (lines second)[index]? := by
  simp only [lines, String.toList_append, List.getElem?_map, List.count,
    getElem?_pieces_append_right (· == '\n') _ _ behind]

theorem lines_empty : lines "" = [""] := rfl

theorem toNat_lineCount {text : String} (few : text.toList.count '\n' < 2 ^ 32 - 1) :
    (lineCount text).toNat = text.toList.count '\n' + 1 := by
  rw [lineCount_eq_length, length_lines, UInt32.toNat_ofNat', Nat.mod_eq_of_lt (by omega)]

/-- A text that is empty or ends with a line break. -/
def IsClosed (text : String) : Prop :=
  text = "" ∨ ∃ before, text = before ++ "\n"

/-- The last line of a closed text is empty, and an appended text takes its place. -/
theorem IsClosed.lines_append {text : String} (closed : IsClosed text) {body : List String}
    (given : lines text = body ++ [""]) (more : String) :
    lines (text ++ more) = body ++ lines more := by
  rcases closed with rfl | ⟨before, rfl⟩
  · have none : body = [] := by
      rw [lines_empty] at given
      exact (List.append_left_eq_self.mp given.symm)
    rw [none, List.nil_append, String.empty_append]
  · have split := lines_append_break before ""
    rw [String.append_empty, given, lines_empty] at split
    rw [lines_append_break, List.append_cancel_right split]

/-- A text less a line feed, or a carriage return and a line feed, at its end. -/
def strip (text : String) : String :=
  match text.toList.reverse with
  | '\n' :: '\r' :: before => String.ofList before.reverse
  | '\n' :: before => String.ofList before.reverse
  | _ => text

theorem withoutFinalBreak_eq_strip (text : String) : withoutFinalBreak text = strip text := by
  have backward := List.reverse_reverse text.toList
  rw [withoutFinalBreak, strip, ← backward]
  generalize text.toList.reverse = reversed
  rcases reversed with _ | ⟨last, before⟩
  · rfl
  · rw [List.reverse_cons, List.getLast?_concat, List.dropLast_concat, withoutFinal]
    by_cases feed : last = '\n'
    · subst feed
      rcases before with _ | ⟨second, before⟩
      · rfl
      · rw [List.reverse_cons, List.getLast?_concat, List.dropLast_concat]
        by_cases carriage : second = '\r'
        · subst carriage
          simp
        · simp [carriage]
    · simp [feed]

/-- A line without the carriage returns at its end. -/
def withoutReturns (line : String) : String :=
  String.ofList (line.toList.rdropWhile (· == '\r'))

/-- The lines of a text, each without the carriage returns at its end. -/
def bareLines (text : String) : List String :=
  (lines text).map withoutReturns

theorem withoutFinal_concat (c : Char) (text : List Char) : withoutFinal c (text ++ [c]) = text := by
  rw [withoutFinal, if_pos List.getLast?_concat, List.dropLast_concat]

theorem rdropWhile_withoutFinal (c : Char) (text : List Char) :
    (withoutFinal c text).rdropWhile (· == c) = text.rdropWhile (· == c) := by
  rw [withoutFinal]
  split <;> rename_i final
  · obtain ⟨before, rfl⟩ := List.getLast?_eq_some_iff.mp final
    rw [List.dropLast_concat, List.rdropWhile_concat_pos (· == c) before c (beq_self_eq_true c)]
  · rfl

theorem bareLines_eq (text : String) :
    bareLines text = (pieces (· == '\n') text.toList).map fun piece =>
      String.ofList (piece.rdropWhile (· == '\r')) := by
  simp only [bareLines, lines, List.map_map, Function.comp_def, withoutReturns, String.toList_ofList,
    rdropWhile_withoutFinal]

theorem bareLines_append_break (first second : String) :
    bareLines (first ++ "\n" ++ second) = bareLines first ++ bareLines second := by
  rw [bareLines, lines_append_break, List.map_append]
  rfl

/-- A carriage return at the end of a text is one at the end of its last line. -/
theorem bareLines_append_return (text : String) : bareLines (text ++ "\r") = bareLines text := by
  obtain ⟨before, last, cut, joined⟩ := exists_pieces_append (· == '\n') text.toList
  have carriage : pieces (· == '\n') "\r".toList = [['\r']] := by decide
  rw [bareLines_eq, bareLines_eq, String.toList_append, joined carriage, cut, List.map_append,
    List.map_append, List.map_singleton, List.map_singleton,
    List.rdropWhile_concat_pos (· == '\r') last '\r' (beq_self_eq_true '\r')]

theorem bareLines_withoutFinal (text : List Char) :
    bareLines (String.ofList (withoutFinal '\r' text)) = bareLines (String.ofList text) := by
  rw [withoutFinal]
  split <;> rename_i final
  · obtain ⟨before, rfl⟩ := List.getLast?_eq_some_iff.mp final
    rw [List.dropLast_concat, String.ofList_append]
    exact (bareLines_append_return _).symm
  · rfl

/-- Dropping the final break drops the empty line behind it and no other. The line in front of it may
lose one more carriage return, since it counts as the last one of the text now. -/
theorem bareLines_strip (text : String) :
    bareLines text =
      bareLines (strip text) ++ if text.toList.getLast? = some '\n' then [""] else [] := by
  rw [← withoutFinalBreak_eq_strip, withoutFinalBreak]
  split <;> rename_i final
  · obtain ⟨before, split⟩ := List.getLast?_eq_some_iff.mp final
    have whole : text = String.ofList before ++ "\n" ++ "" := by
      rw [← String.toList_inj, split]
      simp
    rw [split, List.dropLast_concat, bareLines_withoutFinal, whole, bareLines_append_break]
    rfl
  · rw [List.append_nil]

/-- Dropping the final break drops the empty line behind it, and no line otherwise. -/
theorem length_lines_strip (text : String) :
    (lines (strip text)).length + (if text.toList.getLast? = some '\n' then 1 else 0) =
      (lines text).length := by
  have lengths := congrArg List.length (bareLines_strip text)
  simp only [bareLines, List.length_append, List.length_map] at lengths
  rw [lengths]
  split <;> rfl

/-- As many lines as a text has breaks are left without its final break. -/
theorem count_le_length_lines_strip (text : String) :
    text.toList.count '\n' ≤ (lines (strip text)).length := by
  have dropped := length_lines_strip text
  rw [length_lines text] at dropped
  split at dropped <;> omega

theorem getElem?_bareLines_strip {text : String} {index : Nat} (within : index < text.toList.count '\n') :
    (bareLines (strip text))[index]? = (bareLines text)[index]? := by
  have inFront : index < (bareLines (strip text)).length := by
    rw [bareLines, List.length_map]
    exact Nat.lt_of_lt_of_le within (count_le_length_lines_strip text)
  rw [bareLines_strip text, List.getElem?_append_left inFront]

end SingleFile.Text
