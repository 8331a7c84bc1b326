import SingleFile.Json.Basic
import SingleFile.Decimal.Shortest

/-! # The value of a numeral

Whole numbers that fit 64 bits keep their value, with `-0` as the one exception; all other numerals
are doubles. A double is the digits that fit 64 bits, scaled by a power of ten. A numeral too
large for a double has no value.
-/

namespace SingleFile

inductive Number where
  | natural (value : Nat)
  | negative (magnitude : Nat)
  | real (value : Float)

namespace Numeral

/-- Takes digits into a significand while it stays below `2 ^ 64`, and gives those left over. -/
def accumulate (significand : Nat) : List Nat → Nat × List Nat
  | [] => (significand, [])
  | digit :: rest =>
    if significand * 10 + digit < UInt64.size then accumulate (significand * 10 + digit) rest
    else (significand, digit :: rest)

def powerOfTen (exponent : Nat) : Float :=
  Float.ofScientific 1 false exponent

/-- Divides by a power of ten, in steps of at most `10 ^ 308`, until nothing is left. -/
def scaleDown (value : Float) (exponent : Nat) : Float :=
  if exponent ≤ 308 then value / powerOfTen exponent
  else if value == 0 then value
  else scaleDown (value / powerOfTen 308) (exponent - 308)
termination_by exponent

/-- The significand times a power of ten; none if that exceeds the doubles. -/
def scale? (significand : Nat) (exponent : Int) : Option Float :=
  let value := significand.toUInt64.toFloat
  if exponent < 0 then some (scaleDown value exponent.natAbs)
  else if 308 < exponent then if significand = 0 then some value else none
  else
    let scaled := value * powerOfTen exponent.toNat
    if scaled.isInf then none else some scaled

def natOfDigits (digits : List Nat) : Nat :=
  digits.foldl (fun value digit => value * 10 + digit) 0

/-- The double of a numeral that is no whole number of 64 bits. Exponents beyond 31 bits count as
infinite. -/
def real? (numeral : Numeral) : Option Float := do
  let (significand, beyond) := accumulate 0 numeral.whole
  let (significand, dropped) := accumulate significand numeral.fraction
  let places : Int := beyond.length - (numeral.fraction.length - dropped.length : Nat)
  let magnitude ← match numeral.exponent with
    | none => scale? significand places
    | some exponent =>
      let value := natOfDigits exponent.digits
      if 1 <<< 31 ≤ value then
        if significand = 0 ∨ exponent.negative then some 0 else none
      else scale? significand (if exponent.negative then places - value else places + value)
  some (if numeral.negative then -magnitude else magnitude)

def value? (numeral : Numeral) : Option Number :=
  let whole := natOfDigits numeral.whole
  if numeral.fraction = [] ∧ numeral.exponent = none then
    if numeral.negative then
      if 0 < whole ∧ whole ≤ 1 <<< 63 then some (.negative whole) else numeral.real?.map .real
    else if whole < UInt64.size then some (.natural whole)
    else numeral.real?.map .real
  else numeral.real?.map .real

end Numeral

namespace Number

/-- Where the point stands in the text of a double: exponents from `least` to `greatest` of its
first digit are written out with zeros, all others as a signed power of ten. -/
structure PointFormat where
  least : Int
  greatest : Int

def pointFormat : PointFormat := ⟨-5, 15⟩

/-- The digits with the point in its place, at least one digit on either side of it. -/
def renderPositional (digits : List Char) (exponent : Int) : List Char :=
  if exponent < 0 then
    '0' :: '.' :: (List.replicate (exponent.natAbs - 1) '0' ++ digits)
  else
    let before := exponent.toNat + 1
    let fraction := digits.drop before
    digits.take before ++ List.replicate (before - digits.length) '0' ++
      '.' :: (if fraction = [] then ['0'] else fraction)

def renderScientific (digits : List Char) (exponent : Int) : List Char :=
  digits.take 1 ++ (if digits.length ≤ 1 then [] else '.' :: digits.drop 1) ++
    'e' :: (if exponent < 0 then '-' else '+') :: Nat.toDigits 10 exponent.natAbs

def renderReal (value : Float) : List Char :=
  let bits := value.toBits.toNat
  let sign := if 1 <<< 63 ≤ bits then ['-'] else []
  let binary := Decimal.Binary.ofBits bits
  if binary.mantissa = 0 then sign ++ ['0', '.', '0']
  else
    let decimal := Decimal.shortest binary
    let digits := Nat.toDigits 10 decimal.digits
    let exponent := decimal.exponent + (digits.length - 1 : Nat)
    sign ++ if pointFormat.least ≤ exponent ∧ exponent ≤ pointFormat.greatest
      then renderPositional digits exponent
      else renderScientific digits exponent

def render : Number → List Char
  | .natural value => Nat.toDigits 10 value
  | .negative magnitude => '-' :: Nat.toDigits 10 magnitude
  | .real value => renderReal value

end Number

end SingleFile
