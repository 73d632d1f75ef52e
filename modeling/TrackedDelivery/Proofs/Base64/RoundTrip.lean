import TrackedDelivery.Base64
import Mathlib.Data.Nat.Notation
/-!
# Base64 is read back

Four symbols hold the 24 bits of three bytes, and the padding tells how many of the bytes count.
Main statement: reading what was written gives the bytes again.
-/
namespace TrackedDelivery.Base64

theorem readSymbol_symbol (offset : ℕ) {v : ℕ} (h : v < 64) :
    readSymbol offset (symbol v) = .ok v := by
  simp [readSymbol, value?_symbol h]

/-- The four values of three bytes are values of symbols. -/
theorem quad_lt (a b c : UInt8) : a.toNat / 4 < 64 ∧ a.toNat % 4 * 16 + b.toNat / 16 < 64 ∧
    b.toNat % 16 * 4 + c.toNat / 64 < 64 ∧ c.toNat % 64 < 64 := by
  have ha := a.toNat_lt
  have hb := b.toNat_lt
  have hc := c.toNat_lt
  omega

theorem joinQuad_split (a b c : UInt8) :
    joinQuad (a.toNat / 4) (a.toNat % 4 * 16 + b.toNat / 16) (b.toNat % 16 * 4 + c.toNat / 64)
      (c.toNat % 64) = [a, b, c] := by
  have hb := b.toNat_lt
  have hc := c.toNat_lt
  have h₁ : a.toNat / 4 * 4 + (a.toNat % 4 * 16 + b.toNat / 16) / 16 = a.toNat := by omega
  have h₂ : (a.toNat % 4 * 16 + b.toNat / 16) % 16 * 16
      + (b.toNat % 16 * 4 + c.toNat / 64) / 4 = b.toNat := by omega
  have h₃ : (b.toNat % 16 * 4 + c.toNat / 64) % 4 * 64 + c.toNat % 64 = c.toNat := by omega
  simp only [joinQuad, h₁, h₂, h₃, UInt8.ofNat_toNat]

theorem readLastSymbols_symbol (start index : ℕ) {v : ℕ} (h : v < 64) (rest : Bytes) :
    readLastSymbols start index (symbol v :: rest) =
      (readLastSymbols start (index + 1) rest).map fun p => (v :: p.1, p.2) := by
  rw [readLastSymbols, if_neg (symbol_ne_padding h), readSymbol_symbol _ h]
  cases readLastSymbols start (index + 1) rest <;> rfl

/-- Padding at the third or fourth place ends the symbols. -/
theorem readLastSymbols_padding (start index : ℕ) (h : 2 ≤ index) (count : ℕ) :
    readLastSymbols start index (padding :: List.replicate count padding) =
      .ok ([], 1 + count) := by
  have hall : (List.replicate count padding).all (· = padding) = true := by simp
  rw [readLastSymbols, if_pos rfl, if_neg (by omega), if_pos hall, List.length_replicate]

/-- The written form of one byte, of two and of three. -/
theorem decodeLast_one (start : ℕ) (a : UInt8) : decodeLast start (encode [a]) = .ok [a] := by
  obtain ⟨h₁, h₂, -, -⟩ := quad_lt a 0 0
  have hq := joinQuad_split a 0 0
  simp only [UInt8.toNat_zero, Nat.zero_div, Nat.zero_mod, Nat.zero_mul, Nat.add_zero] at h₂ hq
  have hr := readLastSymbols_padding start 2 (by decide) 1
  simp only [List.replicate_one] at hr
  rw [decodeLast, encode, readLastSymbols_symbol _ _ h₁, readLastSymbols_symbol _ _ h₂, hr]
  simp only [Except.map, bind, Except.bind, hq]
  rw [if_pos (by omega)]
  rfl

theorem decodeLast_two (start : ℕ) (a b : UInt8) :
    decodeLast start (encode [a, b]) = .ok [a, b] := by
  obtain ⟨h₁, h₂, h₃, -⟩ := quad_lt a b 0
  have hq := joinQuad_split a b 0
  simp only [UInt8.toNat_zero, Nat.zero_div, Nat.zero_mod, Nat.add_zero] at h₃ hq
  have hr := readLastSymbols_padding start 3 (by decide) 0
  simp only [List.replicate_zero] at hr
  rw [decodeLast, encode, readLastSymbols_symbol _ _ h₁, readLastSymbols_symbol _ _ h₂,
    readLastSymbols_symbol _ _ h₃, hr]
  simp only [Except.map, bind, Except.bind, hq]
  rw [if_pos (by omega)]
  rfl

theorem decodeLast_three (start : ℕ) (a b c : UInt8) :
    decodeLast start (encode [a, b, c]) = .ok [a, b, c] := by
  obtain ⟨h₁, h₂, h₃, h₄⟩ := quad_lt a b c
  rw [decodeLast, encode, encode, readLastSymbols_symbol _ _ h₁, readLastSymbols_symbol _ _ h₂,
    readLastSymbols_symbol _ _ h₃, readLastSymbols_symbol _ _ h₄, readLastSymbols]
  simp only [Except.map, bind, Except.bind, joinQuad_split]

theorem encode_ne_nil {bytes : Bytes} (h : bytes ≠ []) : encode bytes ≠ [] := by
  fun_cases encode bytes <;> simp_all

theorem decodeFrom_encode (start : ℕ) (bytes : Bytes) :
    decodeFrom start (encode bytes) = .ok bytes := by
  induction bytes using encode.induct generalizing start with
  | case1 => rfl
  | case2 a => exact decodeLast_one start a
  | case3 a b => exact decodeLast_two start a b
  | case4 a b c rest ih =>
      cases hrest : rest with
      | nil => exact decodeLast_three start a b c
      | cons d tail =>
          obtain ⟨h₁, h₂, h₃, h₄⟩ := quad_lt a b c
          obtain ⟨e, more, he⟩ := List.exists_cons_of_ne_nil
            (encode_ne_nil (List.cons_ne_nil d tail))
          have ih := ih (start + 4)
          rw [hrest, he] at ih
          rw [encode, he, decodeFrom, readSymbol_symbol _ h₁, readSymbol_symbol _ h₂,
            readSymbol_symbol _ h₃, readSymbol_symbol _ h₄, ih]
          simp only [bind, Except.bind, pure, Except.pure, joinQuad_split, List.cons_append,
            List.nil_append]

theorem length_encode_mod (bytes : Bytes) : (encode bytes).length % 4 = 0 := by
  fun_induction encode bytes with
  | case1 => rfl
  | case2 | case3 => simp only [List.length_cons, List.length_nil]
  | case4 a b c rest ih => simp only [List.length_cons]; omega

@[simp] theorem decode_encode (bytes : Bytes) : decode (encode bytes) = .ok bytes := by
  have hmod := length_encode_mod bytes
  have hstray : strayByte? (encode bytes) = none := by
    rw [strayByte?, if_neg (by omega)]
  rw [decode, hstray]
  exact decodeFrom_encode 0 bytes

end TrackedDelivery.Base64
