import Mathlib.Tactic.Ring
import SingleFile.SourceMap.Vlq

/-! # Numbers of variable length are read as written

A written number is read back and what follows it is read on, for every number that thirteen digits
can hold. Its symbols are letters, digits, `+` and `/`, so no number looks like a separator.
-/

namespace SingleFile.Vlq

theorem signed_doubled (number : Int) : signed (doubled number) = number := by
  rw [signed, doubled]
  split <;> split <;> omega

theorem digits_symbol {value : Nat} (below : value < 64) :
    digits (Text.Base64.symbol value) = [value] := by
  rw [digits, Text.Base64.value?_symbol value below]

theorem writeDigits_lt (value : Nat) : ∀ digit ∈ writeDigits value, digit < 64 := by
  fun_induction writeDigits value with
  | case1 value small =>
    intro digit member
    have := List.mem_singleton.mp member
    omega
  | case2 value large ih =>
    intro digit member
    rcases List.mem_cons.mp member with rfl | member
    · omega
    · exact ih digit member

/-- The symbols of a number stand for its digits. -/
theorem flatMap_digits_write (number : Int) :
    (write number).flatMap digits = writeDigits (doubled number) := by
  have symbols : ∀ values : List Nat, (∀ digit ∈ values, digit < 64) →
      (values.map Text.Base64.symbol).flatMap digits = values := by
    intro values below
    induction values with
    | nil => rfl
    | cons head rest ih =>
      rw [List.map_cons, List.flatMap_cons, digits_symbol (below head List.mem_cons_self),
        ih fun digit member => below digit (List.mem_cons_of_mem _ member)]
      rfl
  exact symbols _ (writeDigits_lt _)

/-- The digits of a number add it to the bits gathered so far, if the last of them is in time. -/
theorem readDigits_writeDigits {number value shift : Nat} (inTime : shift ≤ 64)
    (fits : number < 2 ^ (65 - shift)) (rest : List Nat) :
    readDigits value shift (writeDigits number ++ rest) =
      (readDigits 0 0 rest).map (signed (value + number * 2 ^ shift) :: ·) := by
  fun_induction writeDigits number generalizing value shift with
  | case1 number small =>
    rw [List.singleton_append, readDigits, if_neg (by omega), if_pos small, Nat.mod_eq_of_lt small,
      Nat.shiftLeft_eq]
  | case2 number large ih =>
    have room : shift + 5 ≤ 64 := by
      by_contra late
      have few : 2 ^ (65 - shift) ≤ 2 ^ 5 := Nat.pow_le_pow_right (by decide) (by omega)
      omega
    have lower : number / 32 < 2 ^ (65 - (shift + 5)) := by
      have split : 2 ^ (65 - shift) = 2 ^ (65 - (shift + 5)) * 32 := by
        rw [show 65 - shift = 65 - (shift + 5) + 5 by omega, Nat.pow_add]
      omega
    have low : (number % 32 + 32) % 32 = number % 32 := by omega
    have total : value + number % 32 * 2 ^ shift + number / 32 * 2 ^ (shift + 5) =
        value + number * 2 ^ shift :=
      calc
        _ = value + (number % 32 + 32 * (number / 32)) * 2 ^ shift := by ring
        _ = value + number * 2 ^ shift := by rw [Nat.mod_add_div]
    rw [List.cons_append, readDigits, if_neg (by omega)]
    dsimp only
    rw [if_neg (by omega), low, Nat.shiftLeft_eq, ih room lower, total]

/-- A number is read back as it was written, and reading goes on behind it. -/
theorem read_write_append {number : Int} (fits : number.natAbs < 2 ^ 64) (rest : List Char) :
    read (write number ++ rest) = (read rest).map (number :: ·) := by
  have small : doubled number < 2 ^ (65 - 0) := by
    rw [doubled]
    split <;> omega
  rw [read, List.flatMap_append, flatMap_digits_write, readDigits_writeDigits (by decide) small,
    Nat.zero_add, Nat.pow_zero, Nat.mul_one, signed_doubled]
  rfl

theorem read_nil : read [] = .ok [] := rfl

/-- A text without the separators of segments and lines. -/
def IsPlain (text : List Char) : Prop :=
  ∀ c ∈ text, c ≠ ',' ∧ c ≠ ';'

theorem IsPlain.nil : IsPlain [] :=
  fun _ member => absurd member List.not_mem_nil

theorem IsPlain.append {first second : List Char} (plain : IsPlain first) (other : IsPlain second) :
    IsPlain (first ++ second) :=
  fun c member => (List.mem_append.mp member).elim (plain c) (other c)

theorem isPlain_write (number : Int) : IsPlain (write number) := by
  have plain : ∀ value < 64, Text.Base64.symbol value ≠ ',' ∧ Text.Base64.symbol value ≠ ';' := by
    decide
  intro c member
  obtain ⟨digit, listed, rfl⟩ := List.mem_map.mp member
  exact plain digit (writeDigits_lt _ digit listed)

theorem write_ne_nil (number : Int) : write number ≠ [] := by
  rw [write, writeDigits]
  split <;> simp

end SingleFile.Vlq
