import TrackedDelivery.Number.Unsigned
import Mathlib.Data.Nat.Notation
/-!
# Numerals that are read back

A run of digits is read as the number that it spells if this is within the limit, and is too large
otherwise: a part of it never spells more than the whole. So the numeral of a number is read back
exactly up to the limit.
-/
namespace TrackedDelivery.Number

theorem le_ofDigitChars (value : ℕ) (cs : List Char) : value ≤ Nat.ofDigitChars 10 cs value := by
  induction cs generalizing value with
  | nil => exact Nat.le_refl _
  | cons c rest ih =>
      rw [Nat.ofDigitChars_cons]
      exact Nat.le_trans (by omega) (ih _)

/-- Digits are read to the end, unless the number that they spell exceeds the limit. -/
theorem readDigits_of_digits {limit value : ℕ} {cs : List Char} (hv : value ≤ limit)
    (hcs : ∀ c ∈ cs, c.isDigit = true) :
    readDigits limit value cs =
      if Nat.ofDigitChars 10 cs value ≤ limit then .ok (Nat.ofDigitChars 10 cs value)
      else .error .tooLarge := by
  induction cs generalizing value with
  | nil => exact (if_pos hv).symm
  | cons c rest ih =>
      have hc : c.isDigit = true := hcs c (List.mem_cons_self ..)
      have hnext : 10 * value + (c.toNat - '0'.toNat) = value * 10 + digitValue c := by
        rw [Nat.mul_comm]
        rfl
      rw [readDigits, hc, Nat.ofDigitChars_cons, hnext]
      by_cases hlimit : limit < value * 10 + digitValue c
      · have hle := le_ofDigitChars (value * 10 + digitValue c) rest
        rw [if_neg (by decide), if_pos hlimit, if_neg (by omega)]
      · rw [if_neg (by decide), if_neg hlimit]
        exact ih (Nat.le_of_not_lt hlimit) fun d hd => hcs d (List.mem_cons_of_mem _ hd)

/-- A text that begins with a digit has no sign. -/
theorem unsignedOfChars_of_digits {limit : ℕ} {cs : List Char} (hne : cs ≠ [])
    (hcs : ∀ c ∈ cs, c.isDigit = true) : unsignedOfChars limit cs = readDigits limit 0 cs := by
  unfold unsignedOfChars
  split
  · exact absurd rfl hne
  · exact absurd (hcs '+' (List.mem_cons_self ..)) (by decide)
  · exact absurd (hcs '+' (List.mem_cons_self ..)) (by decide)
  · rfl

/-- The numeral of a number is read back if the number is within the limit. -/
theorem unsigned_toString (limit n : ℕ) :
    unsigned limit (toString n) = if n ≤ limit then .ok n else .error .tooLarge := by
  have hdigits : ∀ c ∈ Nat.toDigits 10 n, c.isDigit = true := fun c hc =>
    Nat.isDigit_of_mem_toDigits (by decide) (by decide) hc
  rw [unsigned, Nat.toString_eq_repr, Nat.toList_repr,
    unsignedOfChars_of_digits Nat.toDigits_ne_nil hdigits,
    readDigits_of_digits (Nat.zero_le _) hdigits, Nat.ofDigitChars_ten_toDigits]

end TrackedDelivery.Number
