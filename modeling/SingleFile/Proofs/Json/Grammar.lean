import Mathlib.Data.List.DropRight
import SingleFile.Json.Parser
import SingleFile.Proofs.Json.Quoted

/-! # The grammar of JSON

A value may be written in many ways: blanks stand between any two parts, characters of a string may be
escaped, and a numeral may have a fraction and an exponent. However a text spells a value, it is read as
this value. Reading takes at most two steps for each character, so the bound that is computed from the
length of a text is enough.
-/

namespace SingleFile.Json

/-- Spaces, tabs and line breaks. -/
def IsBlanks (text : List Char) : Prop :=
  ∀ c ∈ text, c ∈ [' ', '\t', '\n', '\r']

theorem isBlanks_nil : IsBlanks [] :=
  nofun

theorem isBlanks_singleton {c : Char} (blank : c ∈ [' ', '\t', '\n', '\r']) : IsBlanks [c] :=
  List.forall_mem_singleton.mpr blank

structure SpellsDigits (digits : List Nat) (text : List Char) : Prop where
  given : text ≠ []
  each : ∀ c ∈ text, c.isDigit = true
  values : text.map (·.toNat - 48) = digits

inductive SpellsFraction : List Nat → List Char → Prop
  | none : SpellsFraction [] []
  | point {digits : List Nat} {text : List Char} (spelled : SpellsDigits digits text) :
      SpellsFraction digits ('.' :: text)

inductive SpellsSign : Bool → List Char → Prop
  | none : SpellsSign false []
  | plus : SpellsSign false ['+']
  | minus : SpellsSign true ['-']

inductive SpellsExponent : Option Exponent → List Char → Prop
  | none : SpellsExponent none []
  | some {mark : Char} {negative : Bool} {digits : List Nat} {sign text : List Char}
      (marks : mark = 'e' ∨ mark = 'E') (signed : SpellsSign negative sign)
      (spelled : SpellsDigits digits text) :
      SpellsExponent (some ⟨negative, digits⟩) (mark :: (sign ++ text))

/-- A numeral without its sign. Only the digit zero itself may start with a zero. -/
inductive SpellsUnsigned (negative : Bool) : Numeral → List Char → Prop
  | mk {whole fraction : List Nat} {exponent : Option Exponent} {first second third : List Char}
      (digits : SpellsDigits whole first) (leading : ∀ digit more, whole ≠ 0 :: digit :: more)
      (point : SpellsFraction fraction second) (power : SpellsExponent exponent third) :
      SpellsUnsigned negative ⟨negative, whole, fraction, exponent⟩ (first ++ (second ++ third))

inductive SpellsNumeral : Numeral → List Char → Prop
  | unsigned {numeral : Numeral} {text : List Char} (spelled : SpellsUnsigned false numeral text) :
      SpellsNumeral numeral text
  | negative {numeral : Numeral} {text : List Char} (spelled : SpellsUnsigned true numeral text) :
      SpellsNumeral numeral ('-' :: text)

/-- A string between its quotation marks. Its elements stand for a text, or for none if it has an
unpaired surrogate. -/
inductive SpellsText : Option String → List Char → Prop
  | text {pieces : List Piece} {spellings : List (List Char)} {text : String}
      (spelled : List.Forall₂ Piece.Spelled pieces spellings) (stands : StandsFor pieces text.toList) :
      SpellsText (some text) ('"' :: (spellings.flatten ++ ['"']))
  | unpaired {pieces : List Piece} {spellings : List (List Char)}
      (spelled : List.Forall₂ Piece.Spelled pieces spellings)
      (stands : ∀ text, ¬ StandsFor pieces text) :
      SpellsText none ('"' :: (spellings.flatten ++ ['"']))

mutual

/-- A text is one way to write a value. -/
inductive Spells : Json → List Char → Prop
  | null : Spells .null ['n', 'u', 'l', 'l']
  | yes : Spells (.bool true) ['t', 'r', 'u', 'e']
  | no : Spells (.bool false) ['f', 'a', 'l', 's', 'e']
  | number {numeral : Numeral} {text : List Char} (spelled : SpellsNumeral numeral text) :
      Spells (.number numeral) text
  | string {value : Option String} {text : List Char} (spelled : SpellsText value text) :
      Spells (.string value) text
  | emptyArray {blanks : List Char} (blank : IsBlanks blanks) :
      Spells (.array []) ('[' :: (blanks ++ [']']))
  | array {items : List Json} {text : List Char} (spelled : SpellsItems items text) :
      Spells (.array items) ('[' :: (text ++ [']']))
  | emptyObject {blanks : List Char} (blank : IsBlanks blanks) :
      Spells (.object []) ('{' :: (blanks ++ ['}']))
  | object {members : List (Option String × Json)} {text : List Char}
      (spelled : SpellsMembers members text) : Spells (.object members) ('{' :: (text ++ ['}']))

/-- A value with blanks around it. -/
inductive SpellsPadded : Json → List Char → Prop
  | mk {value : Json} {before text after : List Char} (blank : IsBlanks before)
      (spelled : Spells value text) (blank' : IsBlanks after) :
      SpellsPadded value (before ++ (text ++ after))

inductive SpellsMember : Option String × Json → List Char → Prop
  | mk {name : Option String} {value : Json} {before key between text : List Char}
      (blank : IsBlanks before) (named : SpellsText name key) (blank' : IsBlanks between)
      (spelled : SpellsPadded value text) :
      SpellsMember (name, value) (before ++ (key ++ (between ++ ':' :: text)))

/-- The items of an array that has some. -/
inductive SpellsItems : List Json → List Char → Prop
  | last {item : Json} {text : List Char} (spelled : SpellsPadded item text) :
      SpellsItems [item] text
  | more {item : Json} {items : List Json} {text rest : List Char}
      (spelled : SpellsPadded item text) (others : SpellsItems items rest) :
      SpellsItems (item :: items) (text ++ ',' :: rest)

/-- The members of an object that has some. -/
inductive SpellsMembers : List (Option String × Json) → List Char → Prop
  | last {member : Option String × Json} {text : List Char} (spelled : SpellsMember member text) :
      SpellsMembers [member] text
  | more {member : Option String × Json} {members : List (Option String × Json)}
      {text rest : List Char} (spelled : SpellsMember member text)
      (others : SpellsMembers members rest) :
      SpellsMembers (member :: members) (text ++ ',' :: rest)

end

section Blanks

variable {before text : List Char}

theorem isBlank_of_mem {c : Char} (blank : c ∈ [' ', '\t', '\n', '\r']) : isBlank c = true := by
  simpa [isBlank, or_assoc] using blank

theorem skipBlanks_append (blank : IsBlanks before) (text : List Char) :
    skipBlanks (before ++ text) = skipBlanks text := by
  rw [skipBlanks, List.dropWhile_append_of_pos fun c listed => isBlank_of_mem (blank c listed)]
  rfl

theorem skipBlanks_skipBlanks (text : List Char) : skipBlanks (skipBlanks text) = skipBlanks text :=
  List.dropWhile_idempotent _ _

theorem skipBlanks_cons {c : Char} (visible : isBlank c = false) (rest : List Char) :
    skipBlanks (c :: rest) = c :: rest := by
  rw [skipBlanks, List.dropWhile_cons_of_neg (by simp [visible])]

end Blanks

section Numerals

/-- What may follow a value: blanks, a comma, a closing bracket or the end. -/
def IsEnded (rest : List Char) : Prop :=
  ∀ c ∈ rest.head?, isBlank c = true ∨ c = ',' ∨ c = ']' ∨ c = '}'

variable {digits : List Nat} {text rest : List Char}

theorem scanDigits_of_spells (spelled : SpellsDigits digits text)
    (stop : ∀ c ∈ rest.head?, c.isDigit = false) : scanDigits (text ++ rest) = (digits, rest) := by
  have ended : rest.takeWhile Char.isDigit = [] ∧ rest.dropWhile Char.isDigit = rest := by
    cases rest with
    | nil => exact ⟨rfl, rfl⟩
    | cons c tail =>
      have other := stop c rfl
      exact ⟨List.takeWhile_cons_of_neg (by simp [other]), List.dropWhile_cons_of_neg (by simp [other])⟩
  rw [scanDigits, List.takeWhile_append_of_pos spelled.each,
    List.dropWhile_append_of_pos spelled.each, ended.1, ended.2, List.append_nil, spelled.values]

theorem SpellsDigits.digits_ne_nil (spelled : SpellsDigits digits text) : digits ≠ [] := by
  rintro rfl
  exact spelled.given (List.map_eq_nil_iff.mp spelled.values)

/-- Digits start with a digit. -/
theorem SpellsDigits.head (spelled : SpellsDigits digits text) :
    ∃ c tail, text = c :: tail ∧ c.isDigit = true := by
  obtain ⟨c, tail, rfl⟩ := List.exists_cons_of_ne_nil spelled.given
  exact ⟨c, tail, rfl, spelled.each c List.mem_cons_self⟩

theorem scanFraction?_of_spells (spelled : SpellsFraction digits text)
    (stop : ∀ c ∈ rest.head?, c.isDigit = false ∧ c ≠ '.') :
    scanFraction? (text ++ rest) = some (digits, rest) := by
  cases spelled with
  | none =>
    rw [List.nil_append, scanFraction?]
    rintro tail rfl
    exact (stop '.' rfl).2 rfl
  | @point digits text spelled =>
    have read := scanDigits_of_spells spelled fun c first => (stop c first).1
    obtain ⟨digit, more, rfl⟩ := List.exists_cons_of_ne_nil spelled.digits_ne_nil
    rw [List.cons_append, scanFraction?, read]

theorem scanSign_of_spells {negative : Bool} {sign : List Char} (spelled : SpellsSign negative sign)
    {c : Char} (digit : c.isDigit = true) : scanSign (sign ++ c :: rest) = (negative, c :: rest) := by
  cases spelled with
  | none =>
    rw [List.nil_append, scanSign]
    all_goals
      rintro _ ⟨⟩
      cases digit
  | plus => rfl
  | minus => rfl

theorem scanExponent?_of_spells {exponent : Option Exponent} (spelled : SpellsExponent exponent text)
    (stop : ∀ c ∈ rest.head?, c.isDigit = false ∧ c ≠ 'e' ∧ c ≠ 'E') :
    scanExponent? (text ++ rest) = some (exponent, rest) := by
  cases spelled with
  | none =>
    cases rest with
    | nil => rfl
    | cons c tail =>
      obtain ⟨-, small, capital⟩ := stop c rfl
      rw [List.nil_append, scanExponent?, if_neg (not_or_intro small capital)]
  | @some mark negative digits sign text marks signed spelled =>
    have read := scanDigits_of_spells spelled fun c first => (stop c first).1
    obtain ⟨c, tail, rfl, digit⟩ := spelled.head
    obtain ⟨first, more, rfl⟩ := List.exists_cons_of_ne_nil spelled.digits_ne_nil
    rw [List.cons_append] at read
    rw [List.cons_append, List.append_assoc, List.cons_append, scanExponent?, if_pos marks,
      scanSign_of_spells signed digit]
    dsimp only
    rw [read]

theorem scanUnsigned?_of_spells {negative : Bool} {numeral : Numeral}
    (spelled : SpellsUnsigned negative numeral text)
    (stop : ∀ c ∈ rest.head?, c.isDigit = false ∧ c ≠ '.' ∧ c ≠ 'e' ∧ c ≠ 'E') :
    scanUnsigned? negative (text ++ rest) = some (numeral, rest) := by
  obtain @⟨whole, fraction, exponent, first, second, third, digits, leading, point, power⟩ := spelled
  have afterFraction : ∀ c ∈ (third ++ rest).head?, c.isDigit = false ∧ c ≠ '.' := by
    cases power with
    | none => exact fun c first => ⟨(stop c first).1, (stop c first).2.1⟩
    | some marks _ _ =>
      rintro c ⟨⟩
      rcases marks with rfl | rfl <;> decide
  have afterWhole : ∀ c ∈ (second ++ (third ++ rest)).head?, c.isDigit = false := by
    cases point with
    | none => exact fun c first => (afterFraction c first).1
    | point _ =>
      rintro c ⟨⟩
      rfl
  have read := scanDigits_of_spells digits afterWhole
  rw [List.append_assoc, List.append_assoc, scanUnsigned?, read]
  split
  · rename_i none
    cases none
    exact absurd rfl digits.digits_ne_nil
  · rename_i zero
    cases zero
    exact absurd rfl (leading _ _)
  · rename_i given
    cases given
    rw [scanFraction?_of_spells point afterFraction]
    dsimp only [bind, Option.bind]
    rw [scanExponent?_of_spells power fun c first => ⟨(stop c first).1, (stop c first).2.2⟩]

theorem SpellsUnsigned.head {negative : Bool} {numeral : Numeral}
    (spelled : SpellsUnsigned negative numeral text) :
    ∃ c tail, text = c :: tail ∧ c.isDigit = true := by
  obtain ⟨digits, _, _, _⟩ := spelled
  obtain ⟨c, tail, rfl, digit⟩ := digits.head
  exact ⟨c, _, rfl, digit⟩

theorem scanNumeral?_of_spells {numeral : Numeral} (spelled : SpellsNumeral numeral text)
    (ended : IsEnded rest) : scanNumeral? (text ++ rest) = some (numeral, rest) := by
  have stop : ∀ c ∈ rest.head?, c.isDigit = false ∧ c ≠ '.' ∧ c ≠ 'e' ∧ c ≠ 'E' := by
    intro c first
    have ends := ended c first
    simp only [isBlank, Bool.or_eq_true, beq_iff_eq] at ends
    rcases ends with (((rfl | rfl) | rfl) | rfl) | rfl | rfl | rfl <;> decide
  cases spelled with
  | unsigned spelled =>
    have read := scanUnsigned?_of_spells spelled stop
    obtain ⟨c, tail, rfl, digit⟩ := spelled.head
    rw [List.cons_append] at read ⊢
    rw [scanNumeral?, read]
    rintro rest ⟨⟩
    cases digit
  | negative spelled => exact scanUnsigned?_of_spells spelled stop

end Numerals

section Values

variable {value : Json} {name : Option String} {text rest : List Char} {steps : Nat}

theorem scanString?_of_spells (spelled : SpellsText name text) :
    ∃ tail, text = '"' :: tail ∧ ∀ rest, scanString? (tail ++ rest) = some (name, rest) := by
  have scanned : ∀ {pieces spellings}, List.Forall₂ Piece.Spelled pieces spellings → ∀ rest,
      scanString? ((spellings.flatten ++ ['"']) ++ rest) =
        some ((text? pieces).map String.ofList, rest) := by
    intro pieces spellings spelled rest
    rw [List.append_assoc, List.singleton_append, scanString?, scanQuoted_pieces spelled,
      Option.map_some]
  cases spelled with
  | @text pieces spellings text spelled stands =>
    refine ⟨_, rfl, fun rest => ?_⟩
    rw [scanned spelled, text?_of_standsFor stands, Option.map_some, String.ofList_toList]
  | @unpaired pieces spellings spelled stands =>
    have none : text? pieces = none := by
      rw [Option.eq_none_iff_forall_ne_some]
      exact fun text read => stands text (standsFor_of_text? (isSmall_of_spelled spelled) read)
    refine ⟨_, rfl, fun rest => ?_⟩
    rw [scanned spelled, none, Option.map_none]

theorem isBlank_of_isDigit {c : Char} (digit : c.isDigit = true) : isBlank c = false := by
  cases blank : isBlank c with
  | false => rfl
  | true =>
    simp only [isBlank, Bool.or_eq_true, beq_iff_eq] at blank
    rcases blank with ((rfl | rfl) | rfl) | rfl <;> cases digit

/-- A numeral starts with a digit or a minus sign. -/
theorem SpellsNumeral.head {numeral : Numeral} (spelled : SpellsNumeral numeral text) :
    ∃ c tail, text = c :: tail ∧ (c.isDigit = true ∨ c = '-') := by
  cases spelled with
  | unsigned digits =>
    obtain ⟨c, tail, rfl, digit⟩ := digits.head
    exact ⟨c, tail, rfl, .inl digit⟩
  | negative => exact ⟨'-', _, rfl, .inr rfl⟩

/-- A value starts neither with a blank nor with a closing bracket. -/
theorem Spells.head (spelled : Spells value text) :
    ∃ c tail, text = c :: tail ∧ isBlank c = false ∧ c ≠ ']' := by
  cases spelled with
  | number numeral =>
    obtain ⟨c, tail, rfl, digit | rfl⟩ := numeral.head
    · refine ⟨c, tail, rfl, isBlank_of_isDigit digit, ?_⟩
      rintro rfl
      cases digit
    · exact ⟨'-', tail, rfl, rfl, by decide⟩
  | string spelled =>
    obtain ⟨tail, rfl, _⟩ := scanString?_of_spells spelled
    exact ⟨'"', tail, rfl, rfl, by decide⟩
  | _ => exact ⟨_, _, rfl, rfl, by decide⟩

theorem Spells.length_pos (spelled : Spells value text) : 0 < text.length := by
  obtain ⟨c, tail, rfl, _⟩ := spelled.head
  exact Nat.succ_pos _

theorem scanValue?_skipBlanks (text : List Char) :
    scanValue? steps (skipBlanks text) = scanValue? steps text := by
  cases steps with
  | zero => rfl
  | succ steps => rw [scanValue?, scanValue?, skipBlanks_skipBlanks]

theorem scanValue?_append_blanks {blanks : List Char} (blank : IsBlanks blanks) (text : List Char) :
    scanValue? steps (blanks ++ text) = scanValue? steps text := by
  rw [← scanValue?_skipBlanks, skipBlanks_append blank, scanValue?_skipBlanks]

theorem scanValue?_numeral {c : Char} (start : c.isDigit = true ∨ c = '-') (rest : List Char) :
    scanValue? (steps + 1) (c :: rest) =
      (scanNumeral? (c :: rest)).map fun read => (.number read.1, read.2) := by
  have visible : isBlank c = false := by
    rcases start with digit | rfl
    · exact isBlank_of_isDigit digit
    · rfl
  rw [scanValue?, skipBlanks_cons visible]
  split
  case h_7 => rfl
  all_goals
    rename_i equal
    cases equal
    rcases start with digit | minus
    · cases digit
    · cases minus

theorem scanItems?_skipBlanks (text : List Char) :
    scanItems? steps (skipBlanks text) = scanItems? steps text := by
  cases steps with
  | zero => rfl
  | succ steps => rw [scanItems?, scanItems?, scanValue?_skipBlanks]

theorem scanMembers?_skipBlanks (text : List Char) :
    scanMembers? steps (skipBlanks text) = scanMembers? steps text := by
  cases steps with
  | zero => rfl
  | succ steps => rw [scanMembers?, scanMembers?, skipBlanks_skipBlanks]

theorem scanValue?_bracket (text : List Char) : scanValue? (steps + 1) ('[' :: text) =
    match skipBlanks text with
    | ']' :: rest => some (.array [], rest)
    | rest => (scanItems? steps rest).map fun read => (.array read.1, read.2) := rfl

theorem scanValue?_brace (text : List Char) : scanValue? (steps + 1) ('{' :: text) =
    match skipBlanks text with
    | '}' :: rest => some (.object [], rest)
    | rest => (scanMembers? steps rest).map fun read => (.object read.1, read.2) := rfl

/-- Behind an opening bracket, what is no closing one is an item. -/
theorem scanValue?_items (inside : ∀ tail, skipBlanks text ≠ ']' :: tail) :
    scanValue? (steps + 1) ('[' :: text) =
      (scanItems? steps text).map fun read => (.array read.1, read.2) := by
  rw [scanValue?_bracket]
  split
  · rename_i closed
    exact absurd closed (inside _)
  · rw [scanItems?_skipBlanks]

/-- Behind an opening brace, what is no closing one is a member. -/
theorem scanValue?_members (inside : ∀ tail, skipBlanks text ≠ '}' :: tail) :
    scanValue? (steps + 1) ('{' :: text) =
      (scanMembers? steps text).map fun read => (.object read.1, read.2) := by
  rw [scanValue?_brace]
  split
  · rename_i closed
    exact absurd closed (inside _)
  · rw [scanMembers?_skipBlanks]

/-- The name and the value of a member stand at the start of a text. -/
def ScansMember (steps : Nat) (text : List Char) (name : Option String) (value : Json)
    (left : List Char) : Prop :=
  ∃ afterQuote afterName afterColon, skipBlanks text = '"' :: afterQuote ∧
    scanString? afterQuote = some (name, afterName) ∧ skipBlanks afterName = ':' :: afterColon ∧
    scanValue? steps afterColon = some (value, left)

theorem scanMembers?_last {left : List Char} (scans : ScansMember steps text name value left)
    (closed : skipBlanks left = '}' :: rest) :
    scanMembers? (steps + 1) text = some ([(name, value)], rest) := by
  obtain ⟨_, _, _, quote, named, colon, read⟩ := scans
  simp only [scanMembers?, quote, named, colon, read, closed, bind, Option.bind]

theorem scanMembers?_more {left following : List Char} {members : List (Option String × Json)}
    (scans : ScansMember steps text name value left) (comma : skipBlanks left = ',' :: following)
    (others : scanMembers? steps following = some (members, rest)) :
    scanMembers? (steps + 1) text = some ((name, value) :: members, rest) := by
  obtain ⟨_, _, _, quote, named, colon, read⟩ := scans
  simp only [scanMembers?, quote, named, colon, read, comma, others, bind, Option.bind]

theorem SpellsItems.not_closed {items : List Json} (spelled : SpellsItems items text)
    (rest tail : List Char) : skipBlanks (text ++ rest) ≠ ']' :: tail := by
  have padded : ∀ {item text}, SpellsPadded item text → ∀ rest,
      skipBlanks (text ++ rest) ≠ ']' :: tail := by
    rintro _ _ ⟨blank, spelled, _⟩ rest closed
    obtain ⟨c, _, rfl, visible, inside⟩ := spelled.head
    rw [List.append_assoc, skipBlanks_append blank, List.append_assoc, List.cons_append,
      skipBlanks_cons visible] at closed
    exact inside (List.cons.inj closed).1
  cases spelled with
  | last spelled => exact padded spelled rest
  | more spelled others =>
    rw [List.append_assoc]
    exact padded spelled _

theorem SpellsMembers.not_closed {members : List (Option String × Json)}
    (spelled : SpellsMembers members text) (rest tail : List Char) :
    skipBlanks (text ++ rest) ≠ '}' :: tail := by
  have quoted : ∀ {member text}, SpellsMember member text → ∀ rest,
      skipBlanks (text ++ rest) ≠ '}' :: tail := by
    rintro _ _ ⟨blank, named, _, _⟩ rest closed
    obtain ⟨_, rfl, _⟩ := scanString?_of_spells named
    rw [List.append_assoc, skipBlanks_append blank] at closed
    cases closed
  cases spelled with
  | last spelled => exact quoted spelled rest
  | more spelled others =>
    rw [List.append_assoc]
    exact quoted spelled _

/-- What is spelled in at most half as many characters as there are steps is read. -/
structure ReadsSpelled (steps : Nat) : Prop where
  value : ∀ {value text rest}, Spells value text → IsEnded rest → 2 * text.length ≤ steps →
    scanValue? steps (text ++ rest) = some (value, rest)
  items : ∀ {items text} rest, SpellsItems items text → 2 * text.length < steps →
    scanItems? steps (text ++ ']' :: rest) = some (items, rest)
  members : ∀ {members text} rest, SpellsMembers members text → 2 * text.length < steps →
    scanMembers? steps (text ++ '}' :: rest) = some (members, rest)

namespace ReadsSpelled

/-- A value with blanks around it is read, and the blanks behind it are left. -/
theorem padded (reads : ReadsSpelled steps) (spelled : SpellsPadded value text) (ended : IsEnded rest)
    (enough : 2 * text.length ≤ steps) :
    ∃ left, scanValue? steps (text ++ rest) = some (value, left) ∧
      skipBlanks left = skipBlanks rest := by
  obtain @⟨_, before, text, after, blank, spelled, blank'⟩ := spelled
  have ended' : IsEnded (after ++ rest) := by
    cases after with
    | nil => exact ended
    | cons c tail =>
      rintro _ ⟨⟩
      exact .inl (isBlank_of_mem (blank' c List.mem_cons_self))
  refine ⟨after ++ rest, ?_, skipBlanks_append blank' rest⟩
  rw [List.length_append, List.length_append] at enough
  rw [List.append_assoc, List.append_assoc, scanValue?_append_blanks blank]
  exact reads.value spelled ended' (by omega)

theorem value_succ (reads : ReadsSpelled steps) (spelled : Spells value text) (ended : IsEnded rest)
    (enough : 2 * text.length ≤ steps + 1) :
    scanValue? (steps + 1) (text ++ rest) = some (value, rest) := by
  cases spelled with
  | null => rfl
  | yes => rfl
  | no => rfl
  | number spelled =>
    have read := scanNumeral?_of_spells spelled ended
    obtain ⟨c, tail, rfl, start⟩ := spelled.head
    rw [List.cons_append] at read ⊢
    rw [scanValue?_numeral start, read]
    rfl
  | string spelled =>
    obtain ⟨tail, rfl, read⟩ := scanString?_of_spells spelled
    rw [List.cons_append]
    change (scanString? _).map _ = _
    rw [read]
    rfl
  | emptyArray blank =>
    rw [List.cons_append, List.append_assoc, scanValue?_bracket, skipBlanks_append blank]
    rfl
  | array spelled =>
    rw [List.length_cons, List.length_append] at enough
    have read := reads.items rest spelled (by omega)
    rw [List.cons_append, List.append_assoc, List.singleton_append,
      scanValue?_items (spelled.not_closed _), read]
    rfl
  | emptyObject blank =>
    rw [List.cons_append, List.append_assoc, scanValue?_brace, skipBlanks_append blank]
    rfl
  | object spelled =>
    rw [List.length_cons, List.length_append] at enough
    have read := reads.members rest spelled (by omega)
    rw [List.cons_append, List.append_assoc, List.singleton_append,
      scanValue?_members (spelled.not_closed _), read]
    rfl

theorem items_succ (reads : ReadsSpelled steps) {items : List Json} (rest : List Char)
    (spelled : SpellsItems items text) (enough : 2 * text.length < steps + 1) :
    scanItems? (steps + 1) (text ++ ']' :: rest) = some (items, rest) := by
  cases spelled with
  | last spelled =>
    have ended : IsEnded (']' :: rest) := by
      rintro _ ⟨⟩
      simp
    obtain ⟨left, read, same⟩ := reads.padded spelled ended (by omega)
    have closed : skipBlanks left = ']' :: rest := same
    simp only [scanItems?, read, closed, bind, Option.bind]
  | @more item items text others spelled more =>
    have ended : IsEnded (',' :: (others ++ ']' :: rest)) := by
      rintro _ ⟨⟩
      simp
    rw [List.length_append, List.length_cons] at enough
    obtain ⟨left, read, same⟩ := reads.padded spelled ended (by omega)
    have comma : skipBlanks left = ',' :: (others ++ ']' :: rest) := same
    have later := reads.items rest more (by omega)
    rw [List.append_assoc, List.cons_append]
    simp only [scanItems?, read, comma, later, bind, Option.bind]

theorem member (reads : ReadsSpelled steps) (spelled : SpellsMember (name, value) text)
    (ended : IsEnded rest) (enough : 2 * text.length ≤ steps) :
    ∃ left, ScansMember steps (text ++ rest) name value left ∧ skipBlanks left = skipBlanks rest := by
  obtain @⟨_, _, before, key, between, text, blank, named, blank', spelled⟩ := spelled
  rw [List.length_append, List.length_append, List.length_append, List.length_cons] at enough
  obtain ⟨tail, rfl, string⟩ := scanString?_of_spells named
  obtain ⟨left, read, same⟩ := reads.padded spelled ended (by omega)
  have quote : skipBlanks (before ++ ('"' :: tail ++ (between ++ ':' :: text)) ++ rest) =
      '"' :: (tail ++ (between ++ ':' :: (text ++ rest))) := by
    rw [List.append_assoc, skipBlanks_append blank, List.append_assoc, List.append_assoc]
    rfl
  exact ⟨left, ⟨_, _, _, quote, string _, skipBlanks_append blank' _, read⟩, same⟩

theorem members_succ (reads : ReadsSpelled steps) {members : List (Option String × Json)}
    (rest : List Char) (spelled : SpellsMembers members text) (enough : 2 * text.length < steps + 1) :
    scanMembers? (steps + 1) (text ++ '}' :: rest) = some (members, rest) := by
  cases spelled with
  | last spelled =>
    have ended : IsEnded ('}' :: rest) := by
      rintro _ ⟨⟩
      simp
    obtain ⟨left, scans, same⟩ := reads.member spelled ended (by omega)
    exact scanMembers?_last scans same
  | @more member members text others spelled more =>
    have ended : IsEnded (',' :: (others ++ '}' :: rest)) := by
      rintro _ ⟨⟩
      simp
    rw [List.length_append, List.length_cons] at enough
    obtain ⟨left, scans, same⟩ := reads.member spelled ended (by omega)
    rw [List.append_assoc]
    exact scanMembers?_more scans same (reads.members rest more (by omega))

end ReadsSpelled

theorem readsSpelled (steps : Nat) : ReadsSpelled steps := by
  induction steps with
  | zero =>
    refine ⟨fun spelled _ enough => ?_, nofun, nofun⟩
    have positive := spelled.length_pos
    omega
  | succ steps reads =>
    exact ⟨reads.value_succ, fun rest => reads.items_succ rest, fun rest => reads.members_succ rest⟩

/-- A text spells a value, with blanks around it, and is read as this value. -/
theorem parse?_of_spells (spelled : SpellsPadded value text) : parse? text = some value := by
  have ended : IsEnded [] := nofun
  obtain ⟨left, read, blank⟩ := (readsSpelled (2 * text.length + 2)).padded spelled ended (by omega)
  rw [List.append_nil] at read
  rw [parse?, read]
  simp only [bind, Option.bind, blank]
  rfl

end Values

end SingleFile.Json
