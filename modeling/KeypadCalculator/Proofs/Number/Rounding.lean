import Mathlib
import KeypadCalculator.Number.Binary

/-!
# Rounding to the nearest rank

What `nearestRank` depends on and what it keeps. It depends on the quotient alone, however numerator
and denominator are scaled (`nearestRank_congr`), and it gives back every rank whose value it rounds
(`nearestRank_units`).
-/

namespace KeypadCalculator.Binary

-- The powers below are those of the core library, as in the definitions.
attribute [local instance (high)] instPowNat instNatPowNat

variable {num den num' den' r : ℕ}

/-! ## Only the quotient counts -/

theorem roundHalfEven_mul_right {c : ℕ} (hc : 0 < c) :
    roundHalfEven (num * c) (den * c) = roundHalfEven num den := by
  have hlt : 2 * (num % den * c) < den * c ↔ 2 * (num % den) < den := by
    rw [← Nat.mul_assoc]
    exact Nat.mul_lt_mul_right hc
  have heq : 2 * (num % den * c) = den * c ↔ 2 * (num % den) = den := by
    rw [← Nat.mul_assoc]
    exact Nat.mul_left_inj (by omega)
  unfold roundHalfEven
  simp only [Nat.mul_div_mul_right _ _ hc, Nat.mul_mod_mul_right, hlt, heq]

theorem nearestRank_mul_right {c : ℕ} (hc : 0 < c) :
    nearestRank (num * c) (den * c) = nearestRank num den := by
  unfold nearestRank
  generalize (2 : ℕ) ^ (1074 : ℕ) = one
  simp only [Nat.mul_right_comm num c, Nat.mul_right_comm den c, Nat.mul_div_mul_right _ _ hc,
    roundHalfEven_mul_right hc]

/-- Equal quotients have the same nearest rank. -/
theorem nearestRank_congr (hden : 0 < den) (hden' : 0 < den') (h : num * den' = num' * den) :
    nearestRank num den = nearestRank num' den' := by
  calc nearestRank num den
      = nearestRank (num * den') (den * den') := (nearestRank_mul_right hden').symm
    _ = nearestRank (num' * den) (den' * den) := by rw [h, Nat.mul_comm den den']
    _ = nearestRank num' den' := nearestRank_mul_right hden

/-! ## Values of ranks -/

theorem roundHalfEven_of_exact (h : 0 < den) : roundHalfEven (num * den) den = num := by
  unfold roundHalfEven
  rw [Nat.mul_div_cancel _ h, Nat.mul_mod_left]
  exact if_pos (.inl h)

/-- The binary logarithm of a value goes above 52 by how often the steps between ranks have
doubled. -/
theorem log2_units (r : ℕ) : (units r).log2 - 52 = r / 2 ^ (52 : ℕ) - 1 := by
  show ((r - (r / 2 ^ (52 : ℕ) - 1) * 2 ^ (52 : ℕ)) * 2 ^ (r / 2 ^ (52 : ℕ) - 1)).log2 - 52 = _
  by_cases hr : r < 2 ^ (53 : ℕ)
  · -- up to here the value is the rank
    have hd : r / 2 ^ (52 : ℕ) - 1 = 0 := by omega
    have hlog : r.log2 < 53 := by
      by_cases h0 : r = 0
      · subst h0
        decide
      · exact (Nat.log2_lt h0).2 hr
    rw [hd, Nat.zero_mul, Nat.sub_zero, Nat.pow_zero, Nat.mul_one]
    omega
  · -- the significand has 53 bits, and every doubling adds one
    have hlow : 2 ^ (52 : ℕ) ≤ r - (r / 2 ^ (52 : ℕ) - 1) * 2 ^ (52 : ℕ) := by omega
    have hhigh : r - (r / 2 ^ (52 : ℕ) - 1) * 2 ^ (52 : ℕ) < 2 ^ (53 : ℕ) := by omega
    generalize r - (r / 2 ^ (52 : ℕ) - 1) * 2 ^ (52 : ℕ) = m at hlow hhigh
    generalize r / 2 ^ (52 : ℕ) - 1 = d
    have hpos : 0 < m * 2 ^ d := Nat.mul_pos (by omega) (Nat.two_pow_pos d)
    have hlog : (m * 2 ^ d).log2 = 52 + d := by
      rw [Nat.log2_eq_iff (by omega)]
      constructor
      · rw [Nat.pow_add]
        exact Nat.mul_le_mul_right _ hlow
      · rw [show 52 + d + 1 = 53 + d by omega, Nat.pow_add]
        exact Nat.mul_lt_mul_of_pos_right hhigh (Nat.two_pow_pos d)
    omega

/-- **The value of a rank rounds to that rank.** -/
theorem nearestRank_units (h : r ≤ infinity) : nearestRank (units r) (2 ^ (1074 : ℕ)) = r := by
  have hone : 0 < (2 : ℕ) ^ (1074 : ℕ) := Nat.two_pow_pos 1074
  unfold nearestRank
  generalize (2 : ℕ) ^ (1074 : ℕ) = one at hone
  -- the value is a whole number of steps of its block
  have hround : roundHalfEven (units r * one) (one * 2 ^ (r / 2 ^ (52 : ℕ) - 1))
      = r - (r / 2 ^ (52 : ℕ) - 1) * 2 ^ (52 : ℕ) := by
    rw [units, Nat.mul_assoc, Nat.mul_comm (2 ^ (r / 2 ^ (52 : ℕ) - 1)) one]
    exact roundHalfEven_of_exact (Nat.mul_pos hone (Nat.two_pow_pos _))
  simp only [Nat.mul_div_cancel _ hone, log2_units, hround]
  have hle : (r / 2 ^ (52 : ℕ) - 1) * 2 ^ (52 : ℕ) ≤ r := by omega
  omega

theorem nearestRank_zero (h : 0 < den) : nearestRank 0 den = 0 := by
  have hone : 0 < (2 : ℕ) ^ (1074 : ℕ) := Nat.two_pow_pos 1074
  have hzero : nearestRank 0 ((2 : ℕ) ^ (1074 : ℕ)) = 0 := nearestRank_units (r := 0) (by decide)
  generalize (2 : ℕ) ^ (1074 : ℕ) = one at hone hzero
  have hcross : 0 * one = 0 * den := by rw [Nat.zero_mul, Nat.zero_mul]
  exact (nearestRank_congr h hone hcross).trans hzero

end KeypadCalculator.Binary
