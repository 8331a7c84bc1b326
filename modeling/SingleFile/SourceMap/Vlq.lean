import SingleFile.SourceMap.Error
import SingleFile.Text.Base64

/-! # Numbers of variable length

An integer is written as its magnitude doubled, plus one if it is negative, in digits of five bits
with the lowest first. Every digit but the last carries the bit of value 32.
-/

namespace SingleFile.Vlq

/-- The six-bit digits that a character stands for. A character outside the alphabet counts as one
continued digit for each of its bytes. -/
def digits (c : Char) : List Nat :=
  match Text.Base64.value? c with
  | some value => [value]
  | none => if c = '\x7f' then [62] else List.replicate c.utf8Size 63

/-- The integer of a doubled magnitude with its sign in the lowest bit. -/
def signed (value : Nat) : Int :=
  if value % 2 = 0 then (value / 2 : Nat) else -(value / 2 : Nat)

/-- Reads numbers from digits, with the bits gathered so far for the first. A number must fit 13
digits and must not lack its last one. -/
def readDigits (value shift : Nat) : List Nat → Except DecodeError (List Int)
  | [] => if shift = 0 then .ok [] else .error .numberUnfinished
  | digit :: rest =>
    if 64 < shift then .error .numberTooLong
    else
      let value := value + (digit % 32) <<< shift
      if digit < 32 then (readDigits 0 0 rest).map (signed value :: ·)
      else readDigits value (shift + 5) rest

/-- The numbers of a segment. -/
def read (segment : List Char) : Except DecodeError (List Int) :=
  readDigits 0 0 (segment.flatMap digits)

def doubled (number : Int) : Nat :=
  if number < 0 then 2 * number.natAbs + 1 else 2 * number.natAbs

/-- The digits of a number, lowest first. -/
def writeDigits (value : Nat) : List Nat :=
  if value < 32 then [value] else (value % 32 + 32) :: writeDigits (value / 32)
termination_by value

def write (number : Int) : List Char :=
  (writeDigits (doubled number)).map Text.Base64.symbol

end SingleFile.Vlq
