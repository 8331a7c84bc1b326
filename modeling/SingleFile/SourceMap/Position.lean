/-! # Positions

A `Position` counts lines from one and columns from zero, as people do who read a text. A `Point`
is the same place as source maps store it, with both counted from zero.

Lines and columns are words of 32 bits, and a sum of two words that does not fit one stops the
program. A map can be written so that its own numbers lead there; what adds to these has no value
then.
-/

namespace SingleFile

/-- The sum of two words, none if it does not fit a word. -/
def sum? (first second : UInt32) : Option UInt32 :=
  if first.toNat + second.toNat < UInt32.size then some (first + second) else none

theorem sum?_eq_some_iff {first second sum : UInt32} :
    sum? first second = some sum ↔ sum.toNat = first.toNat + second.toNat := by
  have bound : sum.toNat < UInt32.size := sum.toNat_lt
  rw [sum?, Option.ite_none_right_eq_some, Option.some_inj, ← UInt32.toNat_inj, UInt32.toNat_add]
  change _ ∧ _ % UInt32.size = _ ↔ _
  constructor
  · rintro ⟨fits, same⟩
    exact same.symm.trans (Nat.mod_eq_of_lt fits)
  · intro same
    rw [← same]
    exact ⟨bound, Nat.mod_eq_of_lt bound⟩

theorem sum?_eq_none_iff {first second : UInt32} :
    sum? first second = none ↔ UInt32.size ≤ first.toNat + second.toNat := by
  rw [sum?, ite_eq_right_iff, ← Nat.not_lt]
  exact imp_congr_right fun _ => iff_false_intro (Option.some_ne_none _)

structure Position where
  line : UInt32
  column : UInt32
deriving DecidableEq, Ord

structure Point where
  line : UInt32
  column : UInt32
deriving DecidableEq

def Position.lineStart (line : UInt32) : Position :=
  ⟨line, 0⟩

def Position.render (position : Position) : String :=
  toString position.line.toNat ++ ":" ++ toString position.column.toNat

/-- The stored form of a position; a position on line zero has none. -/
def Position.toPoint? (position : Position) : Option Point :=
  if position.line = 0 then none else some ⟨position.line - 1, position.column⟩

/-- The position of a stored point; one on the last line that a word can store has none. -/
def Point.toPosition? (point : Point) : Option Position :=
  (sum? point.line 1).map (⟨·, point.column⟩)

theorem Point.toPosition?_eq_some_iff {point : Point} {position : Position} :
    point.toPosition? = some position ↔
      position.line.toNat = point.line.toNat + 1 ∧ position.column = point.column := by
  obtain ⟨line, column⟩ := position
  rw [toPosition?, Option.map_eq_some_iff]
  simp only [sum?_eq_some_iff, Position.mk.injEq]
  constructor
  · rintro ⟨_, sum, rfl, rfl⟩
    exact ⟨sum, rfl⟩
  · rintro ⟨sum, rfl⟩
    exact ⟨line, sum, rfl, rfl⟩

/-- The order of points in a text: by line, then by column. -/
def Point.le (first second : Point) : Bool :=
  first.line < second.line || (first.line == second.line && first.column ≤ second.column)

theorem Point.le_trans (first second third : Point) (lower : first.le second)
    (upper : second.le third) : first.le third := by
  simp only [Point.le, Bool.or_eq_true, Bool.and_eq_true, decide_eq_true_eq, beq_iff_eq,
    UInt32.lt_iff_toNat_lt, UInt32.le_iff_toNat_le, ← UInt32.toNat_inj] at *
  omega

theorem Point.le_total (first second : Point) : first.le second || second.le first := by
  simp only [Point.le, Bool.or_eq_true, Bool.and_eq_true, decide_eq_true_eq, beq_iff_eq,
    UInt32.lt_iff_toNat_lt, UInt32.le_iff_toNat_le, ← UInt32.toNat_inj]
  omega

end SingleFile
