/-! # Base 64

The alphabet is `A` to `Z`, `a` to `z`, `0` to `9`, `+` and `/`, for the values 0 to 63 in this
order. Bytes are written three at a time as four symbols, and the last group is filled up with `=`.
-/

namespace SingleFile.Text.Base64

/-- The symbol of a value below 64. -/
def symbol (value : Nat) : Char :=
  if value < 26 then Char.ofNat (value + 65)
  else if value < 52 then Char.ofNat (value + 71)
  else if value < 62 then Char.ofNat (value - 4)
  else if value = 62 then '+'
  else '/'

/-- The value of a symbol, none for a character outside the alphabet. -/
def value? (c : Char) : Option Nat :=
  if 'A' ≤ c ∧ c ≤ 'Z' then some (c.toNat - 65)
  else if 'a' ≤ c ∧ c ≤ 'z' then some (c.toNat - 71)
  else if '0' ≤ c ∧ c ≤ '9' then some (c.toNat + 4)
  else if c = '+' then some 62
  else if c = '/' then some 63
  else none

theorem value?_symbol : ∀ value < 64, value? (symbol value) = some value := by
  decide

/-- The written form of a sequence of bytes. -/
def encode : List UInt8 → List Char
  | [] => []
  | [a] =>
    let group := a.toNat * 65536
    [symbol (group / 262144), symbol (group / 4096 % 64), '=', '=']
  | [a, b] =>
    let group := a.toNat * 65536 + b.toNat * 256
    [symbol (group / 262144), symbol (group / 4096 % 64), symbol (group / 64 % 64), '=']
  | a :: b :: c :: rest =>
    let group := a.toNat * 65536 + b.toNat * 256 + c.toNat
    symbol (group / 262144) :: symbol (group / 4096 % 64) :: symbol (group / 64 % 64) ::
      symbol (group % 64) :: encode rest

/-- Reads a written form back. Only whole groups count, `=` stands only at the end, and the bits
that a filled-up group has to spare must be zero. -/
def decode? : List Char → Option (List UInt8)
  | [] => some []
  | [a, b, '=', '='] => do
    let group := (← value? a) * 64 + (← value? b)
    if group % 16 = 0 then some [UInt8.ofNat (group / 16)] else none
  | [a, b, c, '='] => do
    let group := (← value? a) * 4096 + (← value? b) * 64 + (← value? c)
    if group % 4 = 0 then some [UInt8.ofNat (group / 1024), UInt8.ofNat (group / 4 % 256)]
    else none
  | a :: b :: c :: d :: rest => do
    let group := (← value? a) * 262144 + (← value? b) * 4096 + (← value? c) * 64 + (← value? d)
    let bytes ← decode? rest
    some (UInt8.ofNat (group / 65536) :: UInt8.ofNat (group / 256 % 256) ::
      UInt8.ofNat (group % 256) :: bytes)
  | _ => none

end SingleFile.Text.Base64
