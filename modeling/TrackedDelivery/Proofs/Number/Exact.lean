import TrackedDelivery.Number.Binary64
import Mathlib.Algebra.Group.Nat.Defs
/-!
# Whole numbers in binary64

A whole number up to 2^53 is a binary64 number. As long as the exact result of a sum or a product of
such numbers is again one of them, nothing is rounded.
-/
namespace TrackedDelivery.Number.Binary64

theorem unit_eq_two_pow : ∃ p, unit = 2 ^ p := by
  unfold unit
  generalize 1074 = p
  exact ⟨p, rfl⟩

theorem unit_pos : 0 < unit := by
  obtain ⟨p, hp⟩ := unit_eq_two_pow
  rw [hp]
  exact Nat.two_pow_pos p

/-- A whole number itself, not rounded. -/
def whole (n : ℕ) : Binary64 := .finite (n * unit)

theorem zero_eq_whole : zero = whole 0 := by rw [zero, whole, Nat.zero_mul]

/-- A multiple of its own last place is not rounded. -/
theorem ofRatio_of_dvd {quanta den : ℕ} (hden : 0 < den)
    (hplace : 2 ^ lastPlace quanta ∣ quanta) (hfinite : quanta < Nat.pow 2 1024 * unit) :
    ofRatio (quanta * den) den = .finite quanta := by
  obtain ⟨m, hm⟩ := hplace
  have hquotient : quanta * den / den = quanta := Nat.mul_div_cancel quanta hden
  have hplaces : quanta * den = den * Nat.pow 2 (lastPlace quanta) * m := by
    rw [Nat.pow_eq, Nat.mul_assoc, ← hm, Nat.mul_comm]
  have hnearest : halfEven (quanta * den) (den * Nat.pow 2 (lastPlace quanta)) = m := by
    rw [hplaces]
    exact halfEven_mul_left m _ (Nat.mul_pos hden (Nat.two_pow_pos _))
  have hback : m * Nat.pow 2 (lastPlace quanta) = quanta := by
    rw [Nat.pow_eq, Nat.mul_comm, ← hm]
  simp only [ofRatio, hquotient, hnearest, hback]
  rw [if_pos hfinite]

/-- The bits of a whole number below 2^53 all stand at or above the last place. So does the one bit
of 2^53, although its last place is that of two. -/
theorem two_pow_lastPlace_dvd {n : ℕ} (h : n ≤ 2 ^ 53) :
    2 ^ lastPlace (n * unit) ∣ n * unit := by
  obtain ⟨p, hp⟩ := unit_eq_two_pow
  rw [hp, lastPlace]
  rcases Nat.eq_zero_or_pos n with rfl | hpos
  · rw [Nat.zero_mul]
    exact Nat.dvd_zero _
  rcases Nat.eq_or_lt_of_le h with rfl | hlt
  · rw [← Nat.pow_add, Nat.log2_two_pow]
    exact Nat.pow_dvd_pow 2 (Nat.sub_le _ _)
  · have hne : n * 2 ^ p ≠ 0 := Nat.ne_of_gt (Nat.mul_pos hpos (Nat.two_pow_pos p))
    have hlog : (n * 2 ^ p).log2 < 53 + p := by
      rw [Nat.log2_lt hne, Nat.pow_add]
      exact Nat.mul_lt_mul_of_pos_right hlt (Nat.two_pow_pos p)
    exact Nat.dvd_mul_left_of_dvd (Nat.pow_dvd_pow 2 (by omega)) n

/-- Whatever it is the quotient of, a whole number up to 2^53 is not rounded. -/
theorem ofRatio_whole {n den : ℕ} (hden : 0 < den) (h : n ≤ 2 ^ 53) :
    ofRatio (n * unit * den) den = whole n := by
  have hfinite : n * unit < Nat.pow 2 1024 * unit := by
    generalize hbits : 1024 = bits
    have hlarge : 2 ^ 53 < 2 ^ bits := Nat.pow_lt_pow_right (by decide) (by omega)
    exact Nat.mul_lt_mul_of_pos_right (Nat.lt_of_le_of_lt h hlarge) unit_pos
  exact ofRatio_of_dvd hden (two_pow_lastPlace_dvd h) hfinite

theorem ofDecimal_whole {n : ℕ} (h : n ≤ 2 ^ 53) : ofDecimal n 0 = whole n := by
  have hexact := ofRatio_whole Nat.one_pos h
  rwa [Nat.mul_one] at hexact

theorem ofNat_whole {n : ℕ} (h : n ≤ 2 ^ 53) : ofNat n = whole n := ofDecimal_whole h

theorem add_whole {m n : ℕ} (h : m + n ≤ 2 ^ 53) : (whole m).add (whole n) = whole (m + n) := by
  have hexact := ofRatio_whole Nat.one_pos h
  rwa [Nat.mul_one, Nat.add_mul] at hexact

theorem mul_whole {m n : ℕ} (h : m * n ≤ 2 ^ 53) : (whole m).mul (whole n) = whole (m * n) := by
  have hproduct : m * unit * (n * unit) = m * n * unit * unit := by
    rw [Nat.mul_mul_mul_comm, Nat.mul_assoc (m * n)]
  have hexact := ofRatio_whole unit_pos h
  rwa [← hproduct] at hexact

theorem roundHalfUp_whole (n : ℕ) : roundHalfUp (n * unit) = n := by
  have hsum : 2 * (n * unit) + unit = (2 * n + 1) * unit := by
    rw [Nat.add_one_mul (2 * n), Nat.mul_assoc]
  rw [roundHalfUp, hsum, Nat.mul_div_mul_right _ _ unit_pos]
  omega

end TrackedDelivery.Number.Binary64
