/-! # JSON values

The tree keeps what a text says and decides nothing about it: members stay in order with repeated
names, numbers stay numerals, and a string with an unpaired surrogate escape, which is no Unicode
text, is kept as `none`.
-/

namespace SingleFile

/-- The exponent of a numeral: its sign and its digits. -/
structure Exponent where
  negative : Bool
  digits : List Nat
deriving DecidableEq

/-- A number as written. A numeral without a point has no fraction digits. -/
structure Numeral where
  negative : Bool
  whole : List Nat
  fraction : List Nat
  exponent : Option Exponent
deriving DecidableEq

inductive Json where
  | null
  | bool (value : Bool)
  | number (numeral : Numeral)
  | string (text : Option String)
  | array (items : List Json)
  | object (members : List (Option String × Json))

namespace Json

def ofText (text : String) : Json :=
  .string (some text)

/-- The numeral of a natural number. -/
def ofNat (value : Nat) : Json :=
  .number ⟨false, (Nat.toDigits 10 value).map fun c => c.toNat - '0'.toNat, [], none⟩

def ofFields (fields : List (String × Json)) : Json :=
  .object (fields.map fun (name, value) => (some name, value))

end Json

end SingleFile
