/-! # The shortest decimal of a binary fraction

A double stands for all reals that round to it. Its shortest decimal is the multiple of the
greatest power of ten that lies among them, of two such multiples the one nearer to the double, and
of two equally near the even one.
-/

namespace SingleFile.Decimal

/-- A decimal without sign: `digits` times ten to the power of `exponent`. -/
structure Scaled where
  digits : Nat
  exponent : Int
deriving DecidableEq

/-- A finite double without sign: `mantissa` times two to the power of `exponent`. Doubles next
below it are nearer than those above where `narrow` holds. -/
structure Binary where
  mantissa : Nat
  exponent : Int
  narrow : Bool

/-- The parts of a finite double, from its 52 bits of fraction and 11 bits of exponent. -/
def Binary.ofBits (bits : Nat) : Binary :=
  let fraction : Nat := bits % (1 <<< 52)
  let biased : Nat := (bits >>> 52) % (1 <<< 11)
  if biased = 0 then ⟨fraction, -1074, false⟩
  else ⟨(1 <<< 52) + fraction, biased - 1075, fraction = 0 ∧ 1 < biased⟩

/-- A power with an exponent of either sign, as numerator and denominator. -/
def ratio (base : Nat) (exponent : Int) : Nat × Nat :=
  (base.pow exponent.toNat, base.pow (-exponent).toNat)

/-- The multiple of a power of ten that reads back as `value` and is nearest to it, if there is
one. Everything is counted in quarters of the last place of `value`, over one denominator. -/
def nearestMultiple? (value : Binary) (power : Int) : Option Scaled :=
  let (two, twoBelow) := ratio 2 (value.exponent - 2)
  let (ten, tenBelow) := ratio 10 power
  let unit := ten * twoBelow
  let quarter := two * tenBelow
  let centre := 4 * value.mantissa * quarter
  let low := centre - (if value.narrow then 1 else 2) * quarter
  let high := centre + 2 * quarter
  let readsBack (digits : Nat) : Bool :=
    let point := digits * unit
    0 < digits && (if value.mantissa % 2 = 0 then low ≤ point && point ≤ high
      else low < point && point < high)
  let below := centre / unit
  let above := below + 1
  let toBelow := centre - below * unit
  let toAbove := above * unit - centre
  let preferAbove : Bool := toAbove < toBelow || (toAbove = toBelow && below % 2 = 1)
  if readsBack above && (preferAbove || !readsBack below) then some ⟨above, power⟩
  else if readsBack below then some ⟨below, power⟩
  else none

/-- The shortest decimal of a double; powers of ten from `308` down to `-343` suffice. -/
def shortest (value : Binary) : Scaled :=
  ((List.range 652).findSome? fun (step : Nat) => nearestMultiple? value (308 - step)).getD ⟨0, 0⟩

end SingleFile.Decimal
