import SingleFile.Json.Number

/-! # Typed reading of JSON values

A record is read from an object, where names that are not known are skipped together with their
values, or from an array that gives the values in order. Only what is read must be sound: strings
must be texts, numbers must have a value, and containers may nest only as deep as `room` says.
-/

namespace SingleFile.Json

def asText? : Json → Option String
  | .string text => text
  | _ => none

def asBool? : Json → Option Bool
  | .bool value => some value
  | _ => none

/-- A natural number below `2 ^ 32`, written without point and exponent. -/
def asUInt32? : Json → Option UInt32
  | .number numeral =>
    match numeral.fraction, numeral.exponent, numeral.value? with
    | [], none, some (.natural value) =>
      if value < UInt32.size then some (UInt32.ofNat value) else none
    | _, _, _ => none
  | _ => none

/-- Reads a value that may be null. -/
def orNull? {α : Type} (read : Json → Option α) : Json → Option (Option α)
  | .null => some none
  | value => (read value).map some

/-- Reads a field that may be missing or null. -/
def optional? {α : Type} (read : Json → Option α) : Option Json → Option (Option α)
  | none => some none
  | some value => orNull? read value

/-- Reads an array, with the reader of its items inside it. -/
def items? {α : Type} (room : Nat) (read : Nat → Json → Option α) : Json → Option (List α)
  | .array items =>
    match room with
    | 0 => none
    | room + 1 => items.mapM (read room)
  | _ => none

/-- Whether a value of any kind can be read. -/
def isReadable : Nat → Json → Bool
  | _, .null => true
  | _, .bool _ => true
  | _, .number numeral => numeral.value?.isSome
  | _, .string text => text.isSome
  | room + 1, .array items => items.all (isReadable room)
  | room + 1, .object members =>
    members.all fun (name, value) => name.isSome && isReadable room value
  | 0, .array _ => false
  | 0, .object _ => false

/-- The value under one name among members; none if the name is repeated. -/
def member? (members : List (Option String × Json)) (name : String) : Option (Option Json) :=
  match members.filter (·.1 = some name) with
  | [] => some none
  | [member] => some (some member.2)
  | _ => none

/-- The values of a record's fields in the order of their names. An array must give at least
`least` of them. -/
def fields? (names : List String) (least : Nat) : Json → Option (List (Option Json))
  | .object members =>
    if members.all (·.1.isSome) then names.mapM (member? members) else none
  | .array items =>
    if least ≤ items.length ∧ items.length ≤ names.length then
      some (items.map some ++ List.replicate (names.length - items.length) none)
    else none
  | _ => none

/-- The text that stands for a value used as a name: a string as it is, a number as it is
printed, nothing for other values. -/
def label : Json → String
  | .string text => text.getD ""
  | .number numeral => ((numeral.value?.map Number.render).map String.ofList).getD ""
  | _ => ""

end SingleFile.Json
