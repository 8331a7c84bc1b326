import Mathlib.Data.List.Destutter
import Mathlib.Tactic.Common
import SingleFile.SourceMap.Mappings
import SingleFile.Proofs.Except
import SingleFile.Proofs.SourceMap.Vlq
import SingleFile.Proofs.Text.Lines

/-! # Mappings are read as written

A segment is read back by a cursor that has the values it was written with, and leaves the cursor as
writing did; so reader and writer stay in step over any tokens. What is read are the written tokens
less those equal to the one before, and a token without an origin stands at the last original point
of the map.
-/

namespace SingleFile.Mappings

open Text

/-- The tables are numbered with 32 bits. -/
structure Limits.Numbered (limits : Limits) : Prop where
  sources : limits.sources ≤ 2 ^ 32
  names : limits.names ≤ 2 ^ 32

/-- A token that refers to entries of the tables and is no range. -/
structure Fits (limits : Limits) (token : Token) : Prop where
  source : ∀ origin ∈ token.origin, origin.source < limits.sources
  name : ∀ origin ∈ token.origin, ∀ name ∈ origin.name, name < limits.names
  single : token.isRange = false

/-- Differences to the values of a cursor can be written. -/
structure Cursor.Numbered (cursor : Cursor) : Prop where
  source : cursor.source < 2 ^ 32
  name : cursor.name < 2 ^ 32

/-- What reading makes of a token written at a cursor. -/
def Cursor.reread (cursor : Cursor) (token : Token) : Token :=
  { token with cursor := (cursor.after token).original }

theorem shift_difference (before after : Nat) :
    shift before (after - before) = UInt32.ofNat after := by
  rw [shift, add_sub_cancel, ← UInt32.toNat_inj, UInt32.ofInt, UInt32.toNat_ofNat', UInt32.toNat_ofNat']
  omega

theorem toNat_shift {after : Nat} (small : after < 2 ^ 32) (before : Nat) :
    (shift before (after - before)).toNat = after := by
  rw [shift_difference, UInt32.toNat_ofNat', Nat.mod_eq_of_lt small]

theorem shift_word (before : Nat) (after : UInt32) :
    shift before (after.toNat - before) = after := by
  rw [shift_difference, UInt32.ofNat_toNat]

namespace Cursor

variable {limits : Limits} {cursor : Cursor}

theorem moveColumn_difference (cursor : Cursor) (column : UInt32) :
    cursor.moveColumn (column.toNat - cursor.column.toNat) = { cursor with column } := by
  rw [moveColumn, shift_word]

theorem moveOrigin_difference (numbered : limits.Numbered) {source : Nat}
    (listed : source < limits.sources) (original : Point) :
    cursor.moveOrigin limits (source - cursor.source)
      (original.line.toNat - cursor.original.line.toNat)
      (original.column.toNat - cursor.original.column.toNat) =
      .ok { cursor with source, original } := by
  have small := Nat.lt_of_lt_of_le listed numbered.sources
  rw [moveOrigin, toNat_shift small, if_pos listed, Point.shift, shift_word, shift_word]

theorem moveName_difference (numbered : limits.Numbered) {name : Nat} (listed : name < limits.names) :
    cursor.moveName limits (name - cursor.name) = .ok { cursor with name } := by
  have small := Nat.lt_of_lt_of_le listed numbered.names
  rw [moveName, toNat_shift small, if_pos listed]

end Cursor

theorem read_writeDifference {before after : Nat} (first : before < 2 ^ 32) (second : after < 2 ^ 32)
    (rest : List Char) :
    Vlq.read (writeDifference before after ++ rest) =
      (Vlq.read rest).map (((after : Int) - before) :: ·) :=
  Vlq.read_write_append (by omega) rest

/-- A segment is read back at the cursor it was written at, and leaves the cursor behind the token. -/
theorem readSegment_writeSegment {limits : Limits} (numbered : limits.Numbered) {cursor : Cursor}
    (inStep : cursor.Numbered) {token : Token} (fits : Fits limits token) :
    readSegment limits token.generated.line false cursor (writeSegment cursor token) =
      .ok (cursor.reread token, cursor.after token) := by
  obtain ⟨generated, original, origin, isRange⟩ := token
  obtain ⟨sourceFits, nameFits, single⟩ := fits
  dsimp only at sourceFits nameFits single
  subst single
  have column (rest : List Char) :=
    read_writeDifference cursor.column.toNat_lt generated.column.toNat_lt rest
  rw [readSegment, writeSegment]
  rcases origin with _ | ⟨source, name⟩
  · simp only [column, Vlq.read_nil, Except.map, bind, Except.bind, Cursor.moveColumn_difference]
    rfl
  · have listed := sourceFits _ rfl
    have sources (rest : List Char) :=
      read_writeDifference inStep.source (Nat.lt_of_lt_of_le listed numbered.sources) rest
    have lines (rest : List Char) :=
      read_writeDifference cursor.original.line.toNat_lt original.line.toNat_lt rest
    have columns (rest : List Char) :=
      read_writeDifference cursor.original.column.toNat_lt original.column.toNat_lt rest
    -- the origin's differences do not refer to the column, so the cursor may have moved there before
    have moved : ({ cursor with column := generated.column } : Cursor).moveOrigin limits
        (source - cursor.source) (original.line.toNat - cursor.original.line.toNat)
        (original.column.toNat - cursor.original.column.toNat) = .ok _ :=
      Cursor.moveOrigin_difference numbered listed original
    rcases name with _ | name
    · simp only [List.append_assoc, column, sources, lines, columns, Vlq.read_nil, Except.map, bind,
        Except.bind, Cursor.moveColumn_difference, moved]
      rfl
    · have entry := nameFits _ rfl _ rfl
      have names := read_writeDifference inStep.name (Nat.lt_of_lt_of_le entry numbered.names) []
      have renamed : (⟨generated.column, source, original, cursor.name⟩ : Cursor).moveName limits
          (name - cursor.name) = .ok _ := Cursor.moveName_difference numbered entry
      rw [List.append_nil, Vlq.read_nil] at names
      simp only [List.append_assoc, column, sources, lines, columns, names, Except.map, bind,
        Except.bind, Cursor.moveColumn_difference, moved, renamed]
      rfl

/-- Behind a written segment comes the end, or a separator. -/
def IsSeparated (text : List Char) : Prop :=
  text = [] ∨ ∃ rest, text = ',' :: rest ∨ text = ';' :: rest

/-- The first segment of a separated text is empty. -/
theorem IsSeparated.first_piece {text first : List Char} {rest : List (List Char)}
    (separated : IsSeparated text) (cut : pieces (· == ';') text = first :: rest) :
    ∃ others, pieces (· == ',') first = [] :: others := by
  rcases separated with rfl | ⟨tail, rfl | rfl⟩
  · cases cut
    exact ⟨[], rfl⟩
  · obtain ⟨front, lines, cutTail⟩ := List.exists_cons_of_ne_nil (pieces_ne_nil (· == ';') tail)
    rw [pieces, cutTail] at cut
    cases cut
    exact ⟨_, rfl⟩
  · cases cut
    exact ⟨[], rfl⟩

variable {limits : Limits} {line : UInt32} {cursor : Cursor}

/-- Reads the rest of a line and the lines after it, without range marks. -/
def readRest (limits : Limits) (line : UInt32) (cursor : Cursor) (text : List Char) :
    Except DecodeError (List Token) :=
  match pieces (· == ';') text with
  | [] => .ok []
  | first :: rest =>
    (readLine limits line cursor [] (pieces (· == ',') first)).bind fun read =>
      (readLines limits (line + 1) read.2 [] rest).map (read.1 ++ ·)

private theorem map_nil_append (result : Except DecodeError (List Token)) :
    result.map ([] ++ ·) = result := by
  cases result <;> rfl

/-- Every line starts at column zero, whatever the column before it was. -/
theorem readLines_column (column : UInt32) (texts : List (List Char)) :
    readLines limits line { cursor with column } [] texts = readLines limits line cursor [] texts := by
  induction texts generalizing line with
  | nil => rfl
  | cons text rest ih =>
    cases text with
    | nil => exact ih
    | cons c tail => rfl

theorem readLines_pieces (line : UInt32) (cursor : Cursor) (text : List Char) :
    readLines limits line cursor [] (pieces (· == ';') text) =
      readRest limits line { cursor with column := 0 } text := by
  rw [readRest]
  rcases pieces (· == ';') text with _ | ⟨_ | ⟨c, first⟩, rest⟩
  · rfl
  · exact (readLines_column 0 rest).symm.trans (map_nil_append _).symm
  · rw [readLines]
    · dsimp only [List.headD_nil, List.tail_nil, RangeMarks.read, bind, Except.bind]
      cases readLine limits line { cursor with column := 0 } [] (pieces (· == ',') (c :: first)) <;> rfl
    · exact List.cons_ne_nil c first

theorem read_eq_readRest (text : List Char) :
    read limits [] text = readRest limits 0 .start text := by
  have unmarked : ∀ texts, readLines limits 0 .start [[]] texts = readLines limits 0 .start [] texts := by
    intro texts
    rcases texts with _ | ⟨_ | ⟨c, first⟩, rest⟩ <;> rfl
  exact (unmarked _).trans (readLines_pieces 0 .start text)

/-- A break leads to the start of the next line. -/
theorem readRest_break (text : List Char) :
    readRest limits line cursor (';' :: text) =
      readRest limits (line + 1) { cursor with column := 0 } text := by
  rw [← readLines_pieces]
  exact map_nil_append _

theorem readRest_breaks {steps : Nat} (nonzero : steps ≠ 0) (text : List Char) :
    readRest limits line cursor (List.replicate steps ';' ++ text) =
      readRest limits (line + UInt32.ofNat steps) { cursor with column := 0 } text := by
  induction steps generalizing line cursor with
  | zero => exact absurd rfl nonzero
  | succ steps ih =>
    rw [List.replicate_succ, List.cons_append, readRest_break, Nat.add_comm steps, UInt32.ofNat_add,
      ← UInt32.add_assoc]
    cases steps with
    | zero => exact congrArg (readRest limits · _ text) (UInt32.add_zero (line + 1)).symm
    | succ steps => exact ih (Nat.succ_ne_zero steps)

/-- A comma leaves an empty segment behind, which is skipped. -/
theorem readRest_comma (text : List Char) :
    readRest limits line cursor (',' :: text) = readRest limits line cursor text := by
  obtain ⟨first, rest, cut⟩ := List.exists_cons_of_ne_nil (pieces_ne_nil (· == ';') text)
  have extended : pieces (· == ';') (',' :: text) = (',' :: first) :: rest := by
    rw [pieces, cut]
    rfl
  rw [readRest, readRest, extended, cut]
  rfl

/-- A segment in front of a separator is read on its own. -/
theorem readRest_segment {segment text : List Char} {token : Token} {after : Cursor}
    (plain : Vlq.IsPlain segment) (nonempty : segment ≠ [])
    (separated : IsSeparated text)
    (read : readSegment limits line false cursor segment = .ok (token, after)) :
    readRest limits line cursor (segment ++ text) = (readRest limits line after text).map (token :: ·) := by
  obtain ⟨first, rest, cut⟩ := List.exists_cons_of_ne_nil (pieces_ne_nil (· == ';') text)
  obtain ⟨others, split⟩ := separated.first_piece cut
  have extended : pieces (· == ';') (segment ++ text) = (segment ++ first) :: rest :=
    pieces_append (fun c member => beq_false_of_ne (plain c member).2) cut
  have segments : pieces (· == ',') (segment ++ first) = (segment ++ []) :: others :=
    pieces_append (fun c member => beq_false_of_ne (plain c member).1) split
  rw [List.append_nil] at segments
  have reads : readLine limits line cursor [] (segment :: others) =
      (readLine limits line after [] others).map fun rest => (token :: rest.1, rest.2) := by
    rw [readLine]
    · rw [List.headD_nil, read]
      dsimp only [List.tail_nil, bind, Except.bind]
      cases readLine limits line after [] others <;> rfl
    · exact nonempty
  rw [readRest, readRest, extended, cut]
  dsimp only
  rw [segments, split, reads]
  change _ = ((readLine limits line after [] others).bind _).map _
  cases readLine limits line after [] others with
  | error cause => rfl
  | ok first =>
    dsimp only [Except.map, Except.bind]
    cases readLines limits (line + 1) first.2 [] rest <;> rfl

/-- What is read of tokens written after the one written last: those equal to the one before are
left out, and the others are reread in turn. -/
def rereadFrom (cursor : Cursor) (last : Option Token) : List Token → List Token
  | [] => []
  | token :: rest =>
    if last = some token then rereadFrom cursor last rest
    else cursor.reread token :: rereadFrom (cursor.after token) (some token) rest

theorem Cursor.Numbered.after {token : Token} (inStep : cursor.Numbered)
    (numbered : limits.Numbered) (fits : Fits limits token) : (cursor.after token).Numbered := by
  obtain ⟨generated, original, _ | ⟨source, _ | name⟩, isRange⟩ := token
  · exact ⟨inStep.source, inStep.name⟩
  · exact ⟨Nat.lt_of_lt_of_le (fits.source _ rfl) numbered.sources, inStep.name⟩
  · exact ⟨Nat.lt_of_lt_of_le (fits.source _ rfl) numbered.sources,
      Nat.lt_of_lt_of_le (fits.name _ rfl _ rfl) numbered.names⟩

/-- Text written after a token starts with a separator. -/
theorem isSeparated_writeFrom (line : UInt32) (cursor : Cursor) (last : Token)
    (tokens : List Token) : IsSeparated (writeFrom line cursor (some last) tokens) := by
  induction tokens with
  | nil => exact .inl rfl
  | cons token rest ih =>
    rw [writeFrom]
    split
    · split
      · exact ih
      · exact .inr ⟨_, .inl rfl⟩
    · rename_i nonzero
      obtain ⟨steps, equal⟩ := Nat.exists_eq_succ_of_ne_zero nonzero
      rw [equal]
      exact .inr ⟨_, .inr rfl⟩

theorem isPlain_writeSegment (cursor : Cursor) (token : Token) :
    Vlq.IsPlain (writeSegment cursor token) := by
  obtain ⟨generated, original, _ | ⟨source, _ | name⟩, isRange⟩ := token
  · exact (Vlq.isPlain_write _).append .nil
  · exact (Vlq.isPlain_write _).append <| (((Vlq.isPlain_write _).append <|
      Vlq.isPlain_write _).append <| Vlq.isPlain_write _).append .nil
  · exact (Vlq.isPlain_write _).append <| (((Vlq.isPlain_write _).append <|
      Vlq.isPlain_write _).append <| Vlq.isPlain_write _).append <| Vlq.isPlain_write _

theorem writeSegment_ne_nil (cursor : Cursor) (token : Token) : writeSegment cursor token ≠ [] :=
  List.append_ne_nil_of_left_ne_nil (Vlq.write_ne_nil _) _

/-- A written token is reread, and reading goes on behind it. -/
theorem readRest_writeSegment (numbered : limits.Numbered) (inStep : cursor.Numbered) {token : Token}
    (fits : Fits limits token) {text : List Char} (separated : IsSeparated text) {tokens : List Token}
    (later : readRest limits token.generated.line (cursor.after token) text = .ok tokens) :
    readRest limits token.generated.line cursor (writeSegment cursor token ++ text) =
      .ok (cursor.reread token :: tokens) := by
  rw [readRest_segment (isPlain_writeSegment cursor token) (writeSegment_ne_nil cursor token) separated
    (readSegment_writeSegment numbered inStep fits), later]
  rfl

/-- A segment sets the column, so the column before it does not matter behind it. -/
theorem Cursor.after_column (cursor : Cursor) (column : UInt32) (token : Token) :
    ({ cursor with column } : Cursor).after token = cursor.after token := by
  obtain ⟨generated, original, _ | origin, isRange⟩ := token <;> rfl

/-- Reader and writer stay in step over any tokens. -/
theorem readRest_writeFrom (numbered : limits.Numbered) {last : Option Token} {tokens : List Token}
    (inStep : cursor.Numbered) (fits : ∀ token ∈ tokens, Fits limits token)
    (onLine : ∀ token ∈ last, token.generated.line = line) :
    readRest limits line cursor (writeFrom line cursor last tokens) =
      .ok (rereadFrom cursor last tokens) := by
  induction tokens generalizing line cursor last with
  | nil => rfl
  | cons token rest ih =>
    have tokenFits := fits token List.mem_cons_self
    have restFits := fun other member => fits other (List.mem_cons_of_mem token member)
    have later : readRest limits token.generated.line (cursor.after token)
        (writeFrom token.generated.line (cursor.after token) (some token) rest) = .ok _ :=
      ih (inStep.after numbered tokenFits) restFits fun other same => by cases same; rfl
    have separated := isSeparated_writeFrom token.generated.line (cursor.after token) token rest
    rw [writeFrom, rereadFrom]
    by_cases same : (token.generated.line - line).toNat = 0
    · have level : token.generated.line - line = 0 := UInt32.toNat_inj.mp same
      obtain rfl : line = token.generated.line := by
        rw [← UInt32.sub_add_cancel token.generated.line line, level, UInt32.zero_add]
      rw [if_pos same]
      split
      · exact ih inStep restFits onLine
      · rw [List.append_assoc]
        have read := readRest_writeSegment numbered inStep tokenFits separated later
        cases last with
        | none => exact read
        | some last => exact (readRest_comma _).trans read
    · have apart : last ≠ some token := by
        rintro rfl
        rw [onLine token rfl] at same
        simp at same
      have forward : line + UInt32.ofNat (token.generated.line - line).toNat =
          token.generated.line := by
        rw [UInt32.ofNat_toNat, UInt32.add_comm, UInt32.sub_add_cancel]
      have atStart : ({ cursor with column := 0 } : Cursor).Numbered := ⟨inStep.source, inStep.name⟩
      rw [← Cursor.after_column cursor 0] at later separated
      rw [if_neg same, if_neg apart, List.append_assoc, readRest_breaks same, forward,
        ← Cursor.after_column cursor 0, readRest_writeSegment numbered atStart tokenFits separated later,
        Cursor.reread, Cursor.reread, Cursor.after_column]

/-- The mappings text of tokens is read as the tokens reread from the start of the map. -/
theorem read_write (numbered : limits.Numbered) {tokens : List Token}
    (fits : ∀ token ∈ tokens, Fits limits token) :
    read limits [] (write tokens) = .ok (rereadFrom .start none tokens) := by
  have start : Cursor.start.Numbered := ⟨by decide, by decide⟩
  rw [read_eq_readRest, write]
  exact readRest_writeFrom numbered start fits fun token none => nomatch none

variable {β : Type} {view : Token → β}

/-- In a view that does not tell a token from the reread one, reading drops repeated tokens only. -/
theorem map_rereadFrom_some (same : ∀ cursor token, view (Cursor.reread cursor token) = view token)
    (cursor : Cursor) (last : Token) (tokens : List Token) :
    view last :: (rereadFrom cursor (some last) tokens).map view =
      (tokens.destutter' (· ≠ ·) last).map view := by
  induction tokens generalizing cursor last with
  | nil => rfl
  | cons token rest ih =>
    by_cases repeated : last = token
    · rw [rereadFrom, if_pos (congrArg some repeated),
        List.destutter'_cons_neg _ (not_not_intro repeated), ih]
    · rw [rereadFrom, if_neg fun equal => repeated (Option.some.inj equal), List.map_cons, same, ih,
        List.destutter'_cons_pos _ repeated, List.map_cons]

theorem map_rereadFrom (same : ∀ cursor token, view (Cursor.reread cursor token) = view token)
    (tokens : List Token) :
    (rereadFrom .start none tokens).map view = (tokens.destutter (· ≠ ·)).map view := by
  cases tokens with
  | nil => rfl
  | cons token rest =>
    rw [rereadFrom, if_neg (Option.some_ne_none token).symm, List.map_cons, same,
      map_rereadFrom_some same, List.destutter_cons']

end SingleFile.Mappings
