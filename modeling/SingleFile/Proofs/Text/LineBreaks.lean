import Mathlib.Data.List.Forall2
import SingleFile.Proofs.Text.Lines

/-! # A text and its lines

Lines are what is left of a text without its breaks, and nothing else is lost: with at most one
carriage return put back on each line and a line feed between neighbours, they are the text again.
`isCutInto_iff` says that only the lines of a text are so related to it. Their number may as well be
counted in the bytes of the text, since in UTF-8 no byte of another character is the one of a line feed.
-/

namespace SingleFile.Text

private theorem ofNat_eq_feed_iff {value : Nat} (small : value < 256) :
    UInt8.ofNat value = 10 ↔ value = 10 := by
  rw [← UInt8.toNat_inj, UInt8.toNat_ofNat', Nat.mod_eq_of_lt small]
  rfl

/-- The byte of a line feed stands for a line feed alone: all bytes of longer codes are above 127. -/
theorem count_utf8EncodeChar (c : Char) :
    (String.utf8EncodeChar c).count 10 = if c = '\n' then 1 else 0 := by
  have feed : c = '\n' ↔ c.val.toNat = 10 := by
    rw [← Char.val_inj, ← UInt32.toNat_inj]
    rfl
  have high {value : Nat} (large : 128 ≤ value) (small : value < 256) :
      ¬ (10 : UInt8) = UInt8.ofNat value := by
    rw [eq_comm, ofNat_eq_feed_iff small]
    omega
  simp only [feed, String.utf8EncodeChar]
  split
  case isTrue short =>
    rw [List.count_singleton]
    simp only [beq_iff_eq, ofNat_eq_feed_iff (show c.val.toNat < 256 by omega)]
  case isFalse long =>
    rw [if_neg (show ¬ c.val.toNat = 10 by omega), List.count_eq_zero]
    split_ifs <;> simp (disch := omega) only [List.mem_cons, List.not_mem_nil, high, or_self,
      not_false_eq_true]

/-- The bytes of a text hold a line feed for each of its characters that is one. -/
theorem count_toUTF8 (text : String) :
    text.toUTF8.data.toList.count 10 = text.toList.count '\n' := by
  rw [String.toUTF8_eq_toByteArray, ← String.utf8Encode_toList, List.utf8Encode,
    List.data_toByteArray, List.toList_toArray]
  induction text.toList with
  | nil => rfl
  | cons c rest ih =>
    rw [List.flatMap_cons, List.count_append, count_utf8EncodeChar, ih, List.count_cons,
      Nat.add_comm]
    simp only [beq_iff_eq]

/-- No piece holds a separator. -/
theorem not_separator_of_mem_pieces {isSeparator : Char → Bool} {text piece : List Char}
    (member : piece ∈ pieces isSeparator text) {c : Char} (within : c ∈ piece) :
    isSeparator c = false := by
  induction text generalizing piece with
  | nil =>
    obtain rfl := List.mem_singleton.mp member
    cases within
  | cons head rest ih =>
    obtain ⟨first, others, cut⟩ := List.exists_cons_of_ne_nil (pieces_ne_nil isSeparator rest)
    rw [cut] at ih
    rw [pieces, cut] at member
    split at member
    · obtain rfl | member := List.mem_cons.mp member
      · cases within
      · exact ih member within
    · rename_i plain
      obtain rfl | member := List.mem_cons.mp member
      · obtain rfl | within := List.mem_cons.mp within
        · exact Bool.eq_false_iff.mpr plain
        · exact ih List.mem_cons_self within
      · exact ih (List.mem_cons_of_mem _ member) within

theorem joinWith_eq_intercalate (separator : Char) (parts : List (List Char)) :
    joinWith separator parts = [separator].intercalate parts := by
  induction parts with
  | nil => rfl
  | cons part rest ih =>
    cases rest with
    | nil => simp [joinWith]
    | cons next others =>
      rw [joinWith, ih, List.intercalate_cons_cons, List.append_assoc]
      · rfl
      · exact List.cons_ne_nil _ _

/-- What stands behind a line in its text, up to the line feed or the end: one carriage return, or
nothing if the line has none at its end. -/
def IsEnding (line ending : String) : Prop :=
  ending = "\r" ∨ ending = "" ∧ line.toList.getLast? ≠ some '\r'

/-- A text is cut into lines that hold no line feed. With their endings put back and line feeds between
them, they are the text. -/
structure IsCutInto (text : String) (given : List String) : Prop where
  nonempty : given ≠ []
  unbroken : ∀ line ∈ given, '\n' ∉ line.toList
  joined : ∃ endings, List.Forall₂ IsEnding given endings ∧
    "\n".intercalate (List.zipWith (· ++ ·) given endings) = text

/-- The ending that cutting a piece into a line drops. -/
def endingOf (piece : List Char) : String :=
  if piece.getLast? = some '\r' then "\r" else ""

theorem isEnding_endingOf (piece : List Char) :
    IsEnding (String.ofList (withoutFinal '\r' piece)) (endingOf piece) := by
  rw [endingOf, withoutFinal]
  split <;> rename_i final
  · exact .inl rfl
  · exact .inr ⟨rfl, by rwa [String.toList_ofList]⟩

theorem append_endingOf (piece : List Char) :
    String.ofList (withoutFinal '\r' piece) ++ endingOf piece = String.ofList piece := by
  rw [endingOf, withoutFinal]
  split <;> rename_i final
  · obtain ⟨before, rfl⟩ := List.getLast?_eq_some_iff.mp final
    rw [List.dropLast_concat, String.ofList_append]
  · exact String.append_empty

theorem isCutInto_lines (text : String) : IsCutInto text (lines text) where
  nonempty := by
    rw [lines, ne_eq, List.map_eq_nil_iff]
    exact pieces_ne_nil _ _
  unbroken := by
    intro line member feed
    obtain ⟨piece, cut, rfl⟩ := List.mem_map.mp member
    rw [String.toList_ofList] at feed
    have within : '\n' ∈ piece := by
      rw [withoutFinal] at feed
      split at feed
      · exact List.dropLast_subset _ feed
      · exact feed
    exact absurd (not_separator_of_mem_pieces cut within) (by decide)
  joined := by
    refine ⟨(pieces (· == '\n') text.toList).map endingOf, ?_, ?_⟩
    · rw [lines, List.forall₂_map_left_iff, List.forall₂_map_right_iff, List.forall₂_same]
      exact fun piece _ => isEnding_endingOf piece
    · rw [lines, List.zipWith_map, List.zipWith_self]
      simp only [append_endingOf]
      rw [← String.toList_inj, String.toList_intercalate, List.map_map]
      have chars : String.toList ∘ String.ofList = id := funext fun _ => String.toList_ofList
      rw [chars, List.map_id]
      exact (joinWith_eq_intercalate '\n' _).symm.trans (joinWith_pieces '\n' text.toList)

theorem lines_append_ending {line ending : String} (unbroken : '\n' ∉ line.toList)
    (ends : IsEnding line ending) : lines (line ++ ending) = [line] := by
  rcases ends with rfl | ⟨rfl, bare⟩
  · have chars : (line ++ "\r").toList = line.toList ++ ['\r'] := String.toList_append
    rw [lines_of_unbroken (by simp [chars, unbroken]), chars, withoutFinal_concat, String.ofList_toList]
  · rw [String.append_empty, lines_of_unbroken unbroken, withoutFinal, if_neg bare, String.ofList_toList]

/-- Only the lines of a text put it together. -/
theorem IsCutInto.lines_eq {text : String} {given : List String} (cut : IsCutInto text given) :
    lines text = given := by
  obtain ⟨nonempty, unbroken, endings, ends, rfl⟩ := cut
  -- Line by line: the line feed behind the first line parts it from the others.
  induction ends with
  | nil => exact absurd rfl nonempty
  | @cons line ending rest others first more ih =>
    have alone := lines_append_ending (unbroken line List.mem_cons_self) first
    cases more with
    | nil => rwa [List.zipWith_cons_cons, List.zipWith_nil_left, String.intercalate_singleton]
    | cons next more =>
      rw [List.zipWith_cons_cons, String.intercalate_cons_of_ne_nil (by simp), lines_append_break,
        alone, ih (List.cons_ne_nil _ _) fun line member =>
          unbroken line (List.mem_cons_of_mem _ member)]
      rfl

/-- A text is cut into its lines and in no other way. -/
theorem isCutInto_iff {text : String} {given : List String} :
    IsCutInto text given ↔ lines text = given :=
  ⟨IsCutInto.lines_eq, fun same => same ▸ isCutInto_lines text⟩

/-- The last of some pieces stands at the end of their text. -/
theorem suffix_joinWith (separator : Char) (before : List (List Char)) (last : List Char) :
    last <:+ joinWith separator (before ++ [last]) := by
  induction before with
  | nil => exact List.suffix_refl last
  | cons piece rest ih =>
    rw [List.cons_append, joinWith]
    · exact ih.trans ((List.suffix_cons _ _).trans (List.suffix_append _ _))
    · exact List.append_ne_nil_of_right_ne_nil _ (List.cons_ne_nil _ _)

/-- A carriage return behind a text belongs to the break that follows. -/
theorem lines_append_return {text : String} (bare : text.toList.getLast? ≠ some '\r') :
    lines (text ++ "\r") = lines text := by
  obtain ⟨before, last, cut, joined⟩ := exists_pieces_append (· == '\n') text.toList
  have carriage : pieces (· == '\n') "\r".toList = [['\r']] := by decide
  have kept : last.getLast? ≠ some '\r' := by
    intro final
    obtain ⟨front, whole⟩ := suffix_joinWith '\n' before last
    rw [← cut, joinWith_pieces] at whole
    rw [← whole, List.getLast?_append, final] at bare
    exact bare rfl
  rw [lines, lines, String.toList_append, joined carriage, cut, List.map_append, List.map_append,
    List.map_singleton, List.map_singleton, withoutFinal_concat, withoutFinal, if_neg kept]

/-- A text is cut into its lines and in no other way, and they are one more than it has bytes of a line
feed. A break in a text, with a carriage return or without, parts the lines in front of it from those
behind it. -/
theorem cut_and_count_agree (text : String) :
    (∀ given, lines text = given ↔ IsCutInto text given) ∧
    lineCount text = UInt32.ofNat (text.toUTF8.data.toList.count 10) + 1 ∧
    (text.toList.count '\n' < 2 ^ 32 - 1 → (lines text).length = (lineCount text).toNat) ∧
    ∀ after, lines (text ++ "\n" ++ after) = lines text ++ lines after ∧
      (text.toList.getLast? ≠ some '\r' →
        lines (text ++ "\r\n" ++ after) = lines text ++ lines after) := by
  refine ⟨fun given => isCutInto_iff.symm, ?bytes, fun few => ?number, fun after =>
    ⟨lines_append_break text after, fun bare => ?carriage⟩⟩
  case bytes => rw [count_toUTF8, lineCount]
  case number => rw [length_lines, toNat_lineCount few]
  case carriage =>
    have split : text ++ "\r\n" ++ after = text ++ "\r" ++ "\n" ++ after := by
      simp only [String.append_assoc]
      rfl
    rw [split, lines_append_break, lines_append_return bare]

/-- Two carriage returns in front of a line feed: one belongs to the break, the other to the line. -/
theorem cut_and_count_agree_doubledReturn :
    "ß\r\r\n😀".toList.count '\n' < 2 ^ 32 - 1 ∧ "ß\r\r\n😀".toList.getLast? ≠ some '\r' ∧
      lines "ß\r\r\n😀" = ["ß\r", "😀"] ∧ (lineCount "ß\r\r\n😀").toNat = 2 ∧
      lines ("ß\r\r\n😀" ++ "\r\n" ++ "\r") = ["ß\r", "😀", ""] := by
  have few : "ß\r\r\n😀".toList.count '\n' < 2 ^ 32 - 1 := by decide +kernel
  have bare : "ß\r\r\n😀".toList.getLast? ≠ some '\r' := by decide +kernel
  have cut : lines "ß\r\r\n😀" = ["ß\r", "😀"] := by decide +kernel
  have rest : lines "\r" = [""] := by decide +kernel
  obtain ⟨_, _, counted, parted⟩ := cut_and_count_agree "ß\r\r\n😀"
  refine ⟨few, bare, cut, ?_, ?_⟩
  · rw [← counted few, cut]
    rfl
  · rw [(parted "\r").2 bare, cut, rest]
    rfl

end SingleFile.Text
