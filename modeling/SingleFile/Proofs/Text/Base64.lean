import SingleFile.Text.Base64

/-! # Bytes read back from base 64

However many bytes are written, reading gives them back: three bytes make a whole group of four
symbols, and one or two bytes left over make a group that is filled up. A written form is made of
symbols of the alphabet with at most two fillers behind them.
-/

namespace SingleFile.Text.Base64

/-- A text made of symbols of the alphabet with at most two fillers behind them. -/
def IsFilled (text : List Char) : Prop :=
  ∃ symbols fillers, text = symbols ++ List.replicate fillers '=' ∧ fillers ≤ 2 ∧
    ∀ c ∈ symbols, (value? c).isSome

theorem isFilled_fillers {fillers : Nat} (few : fillers ≤ 2) :
    IsFilled (List.replicate fillers '=') :=
  ⟨[], fillers, rfl, few, fun _ none => absurd none List.not_mem_nil⟩

theorem IsFilled.symbols_append {values : List Nat} {text : List Char} (filled : IsFilled text)
    (below : ∀ value ∈ values, value < 64) : IsFilled (values.map symbol ++ text) := by
  obtain ⟨symbols, fillers, rfl, few, known⟩ := filled
  refine ⟨values.map symbol ++ symbols, fillers, (List.append_assoc ..).symm, few, ?_⟩
  refine List.forall_mem_append.mpr ⟨fun c member => ?_, known⟩
  obtain ⟨value, listed, rfl⟩ := List.mem_map.mp member
  rw [value?_symbol value (below value listed), Option.isSome_some]

/-- A character outside the alphabet stands in no such text, the filler apart. -/
theorem IsFilled.not_mem {text : List Char} (filled : IsFilled text) {c : Char} (other : c ≠ '=')
    (unknown : value? c = none) : c ∉ text := by
  obtain ⟨symbols, fillers, rfl, _, known⟩ := filled
  rw [List.mem_append, not_or]
  refine ⟨fun member => ?_, fun member => other (List.eq_of_mem_replicate member)⟩
  have found := known c member
  rw [unknown] at found
  cases found

theorem symbol_ne_filler : ∀ value < 64, symbol value ≠ '=' := by
  decide

theorem encode_three (a b c : UInt8) (rest : List UInt8) :
    encode (a :: b :: c :: rest) = encode [a, b, c] ++ encode rest := by
  simp only [encode, List.cons_append, List.nil_append]

theorem isFilled_encode (bytes : List UInt8) : IsFilled (encode bytes) := by
  induction bytes using encode.induct with
  | case1 => exact isFilled_fillers (Nat.zero_le 2)
  | case2 a =>
    have bound := a.toNat_lt
    rw [encode]
    change IsFilled ([_, _].map symbol ++ List.replicate 2 '=')
    refine (isFilled_fillers (Nat.le_refl 2)).symbols_append ?_
    simp only [List.mem_cons, List.not_mem_nil, or_false, forall_eq_or_imp, forall_eq]
    omega
  | case3 a b =>
    have aBound := a.toNat_lt
    have bBound := b.toNat_lt
    rw [encode]
    change IsFilled ([_, _, _].map symbol ++ List.replicate 1 '=')
    refine (isFilled_fillers (Nat.le_succ 1)).symbols_append ?_
    simp only [List.mem_cons, List.not_mem_nil, or_false, forall_eq_or_imp, forall_eq]
    omega
  | case4 a b c rest ih =>
    have aBound := a.toNat_lt
    have bBound := b.toNat_lt
    have cBound := c.toNat_lt
    rw [encode]
    change IsFilled ([_, _, _, _].map symbol ++ encode rest)
    refine ih.symbols_append ?_
    simp only [List.mem_cons, List.not_mem_nil, or_false, forall_eq_or_imp, forall_eq]
    omega

private theorem join_four (group : Nat) :
    group / 262144 * 262144 + group / 4096 % 64 * 4096 + group / 64 % 64 * 64 + group % 64 = group := by
  omega

private theorem join_three (group : Nat) :
    group / 262144 * 4096 + group / 4096 % 64 * 64 + group / 64 % 64 = group / 64 := by
  omega

private theorem join_two (group : Nat) : group / 262144 * 64 + group / 4096 % 64 = group / 4096 := by
  omega

/-- Three bytes are read back from their four symbols. -/
theorem decode?_three (a b c : UInt8) (rest : List Char) :
    decode? (encode [a, b, c] ++ rest) = (decode? rest).map (a :: b :: c :: ·) := by
  have aBound := a.toNat_lt
  have bBound := b.toNat_lt
  have cBound := c.toNat_lt
  -- the group stays a variable, since its value would be worked out by counting
  obtain ⟨group, split⟩ : ∃ group, a.toNat * 65536 + b.toNat * 256 + c.toNat = group := ⟨_, rfl⟩
  simp only [encode, split, List.cons_append, List.nil_append]
  have first := value?_symbol (group / 262144) (by omega)
  have second := value?_symbol (group / 4096 % 64) (by omega)
  have third := value?_symbol (group / 64 % 64) (by omega)
  have fourth := value?_symbol (group % 64) (by omega)
  have high : group / 65536 = a.toNat := by omega
  have middle : group / 256 % 256 = b.toNat := by omega
  have low : group % 256 = c.toNat := by omega
  have whole := symbol_ne_filler (group % 64) (by omega)
  rw [decode?]
  · simp only [first, second, third, fourth, Option.bind_eq_bind, Option.bind_some, join_four, high,
      middle, low, UInt8.ofNat_toNat]
    cases decode? rest <;> rfl
  · simp [whole]
  · simp [whole]

/-- Two bytes are read back from three symbols and a filler. -/
theorem decode?_two (a b : UInt8) : decode? (encode [a, b]) = some [a, b] := by
  have aBound := a.toNat_lt
  have bBound := b.toNat_lt
  obtain ⟨group, split⟩ : ∃ group, a.toNat * 65536 + b.toNat * 256 = group := ⟨_, rfl⟩
  rw [encode, split]
  have first := value?_symbol (group / 262144) (by omega)
  have second := value?_symbol (group / 4096 % 64) (by omega)
  have third := value?_symbol (group / 64 % 64) (by omega)
  have spare : group / 64 % 4 = 0 := by omega
  have high : group / 64 / 1024 = a.toNat := by omega
  have low : group / 64 / 4 % 256 = b.toNat := by omega
  have whole := symbol_ne_filler (group / 64 % 64) (by omega)
  rw [decode?]
  · simp only [first, second, third, Option.bind_eq_bind, Option.bind_some, join_three]
    rw [if_pos spare, high, low, UInt8.ofNat_toNat, UInt8.ofNat_toNat]
  · simp [whole]

/-- One byte is read back from two symbols and two fillers. -/
theorem decode?_one (a : UInt8) : decode? (encode [a]) = some [a] := by
  have bound := a.toNat_lt
  obtain ⟨group, split⟩ : ∃ group, a.toNat * 65536 = group := ⟨_, rfl⟩
  rw [encode, split]
  have first := value?_symbol (group / 262144) (by omega)
  have second := value?_symbol (group / 4096 % 64) (by omega)
  have spare : group / 4096 % 16 = 0 := by omega
  have byte : group / 4096 / 16 = a.toNat := by omega
  rw [decode?]
  simp only [first, second, Option.bind_eq_bind, Option.bind_some, join_two]
  rw [if_pos spare, byte, UInt8.ofNat_toNat]

/-- Bytes are read back from their written form. -/
theorem decode?_encode (bytes : List UInt8) : decode? (encode bytes) = some bytes := by
  induction bytes using encode.induct with
  | case1 => rfl
  | case2 a => exact decode?_one a
  | case3 a b => exact decode?_two a b
  | case4 a b c rest ih => rw [encode_three, decode?_three, ih, Option.map_some]

end SingleFile.Text.Base64
