import Mathlib
import KeypadCalculator.Number.Shortest
import KeypadCalculator.Proofs.Number.Rounding

/-!
# The value of a decimal

The rational number that a decimal denotes, and how it decides what the decimal is rounded to: the
rank of a decimal is the one nearest to its value (`rank_eq_nearestRank`), so that decimals of one
value have one rank, whatever their digits. The shortest decimal of a rank rounds to that rank
(`rank_shortest`).
-/

namespace KeypadCalculator.Decimal

open Binary (nearestRank infinity fineUnits)

-- The powers of natural numbers below are those of the core library, as in the definitions.
attribute [local instance (high)] instPowNat instNatPowNat

variable {d e : Decimal} {num den r n : ℕ}

/-- The number `digits * 10 ^ exponent`. -/
def value (d : Decimal) : ℚ :=
  d.digits * (10 : ℚ) ^ d.exponent

/-! ## Values and ranks -/

/-- The value as the quotient that is rounded. -/
theorem value_eq_div (d : Decimal) : d.value
    = ((d.digits * 10 ^ d.exponent.toNat : ℕ) : ℚ) / ((10 ^ (-d.exponent).toNat : ℕ) : ℚ) := by
  have hexponent : d.exponent = (d.exponent.toNat : ℤ) - ((-d.exponent).toNat : ℤ) := by omega
  have hpow : (10 : ℚ) ^ d.exponent
      = (10 : ℚ) ^ d.exponent.toNat / (10 : ℚ) ^ (-d.exponent).toNat := by
    conv_lhs => rw [hexponent]
    rw [zpow_sub₀ (by norm_num), zpow_natCast, zpow_natCast]
  rw [value, hpow]
  push_cast
  ring

/-- A decimal has the rank nearest to its value, however that is written as a quotient. -/
theorem rank_eq_nearestRank (hden : 0 < den) (h : d.value = (num : ℚ) / (den : ℚ)) :
    d.rank = nearestRank num den := by
  have hpow : 0 < 10 ^ (-d.exponent).toNat := Nat.pow_pos (by decide)
  apply Binary.nearestRank_congr hpow hden
  rw [value_eq_div, div_eq_div_iff (by positivity) (by positivity)] at h
  exact_mod_cast h

/-- Decimals of one value have one rank. -/
theorem rank_congr (h : d.value = e.value) : d.rank = e.rank := by
  rw [value_eq_div e] at h
  exact rank_eq_nearestRank (Nat.pow_pos (by decide)) h

/-- A decimal that is written with zeros at its end and places after its point. -/
theorem rank_mk_sub (digits zeros places : ℕ) :
    rank ⟨digits, zeros - places⟩ = nearestRank (digits * 10 ^ zeros) (10 ^ places) := by
  apply rank_eq_nearestRank (Nat.pow_pos (by decide))
  rw [value, zpow_sub₀ (by norm_num), zpow_natCast, zpow_natCast]
  push_cast
  ring

theorem rank_of_digits_eq_zero (h : d.digits = 0) : d.rank = 0 := by
  rw [rank, h, Nat.zero_mul]
  exact Binary.nearestRank_zero (Nat.pow_pos (by decide))

/-! ## The shortest decimal -/

/-- A neighbour is found only if it rounds to the rank. -/
theorem nearestRank_of_neighbour? {step : ℕ} (h : neighbour? r step = some n) :
    nearestRank (n * step) (10 ^ (1074 : ℕ)) = r := by
  unfold neighbour? at h
  dsimp only at h
  split at h
  · rename_i hbelow
    rw [Bool.and_eq_true, beq_iff_eq] at hbelow
    exact Option.some.inj h ▸ hbelow.1
  · split at h
    · rename_i habove
      rw [beq_iff_eq] at habove
      exact Option.some.inj h ▸ habove
    · cases h

/-- The exact value of a rank is a decimal that rounds to it. -/
theorem nearestRank_fineUnits (h : r ≤ infinity) :
    nearestRank (fineUnits r) (10 ^ (1074 : ℕ)) = r := by
  have hone : 0 < 10 ^ (1074 : ℕ) := @Nat.pow_pos 10 1074 (by decide)
  have hscaled (k : ℕ) : Binary.units r * 5 ^ k * 2 ^ k = Binary.units r * 10 ^ k := by
    rw [Nat.mul_assoc, ← Nat.mul_pow]
  rw [fineUnits, Binary.nearestRank_congr hone (Nat.two_pow_pos 1074) (hscaled 1074)]
  exact Binary.nearestRank_units h

/-- **The shortest decimal reads back.** -/
theorem rank_shortest (h : r ≤ infinity) : (shortest r).rank = r := by
  unfold shortest
  dsimp only
  generalize (Nat.toDigits 10 (fineUnits r)).length = width
  generalize hsearch : List.findSome? _ (List.range width) = found
  cases found with
  | none =>
    rw [Option.getD_none]
    have hrank := rank_mk_sub (fineUnits r) 0 1074
    rw [Nat.pow_zero, Nat.mul_one, nearestRank_fineUnits h] at hrank
    exact hrank
  | some hit =>
    -- some number of kept digits made a hit
    obtain ⟨kept, -, hkept⟩ := List.exists_of_findSome?_eq_some hsearch
    obtain ⟨n, hn, rfl⟩ := Option.map_eq_some_iff.1 hkept
    rw [Option.getD_some]
    have hrank := rank_mk_sub n (width - (kept + 1)) 1074
    exact hrank.trans (nearestRank_of_neighbour? hn)

/-- The shortest decimal of a number other than zero has digits. -/
theorem digits_shortest_pos (hpos : 0 < r) (h : r ≤ infinity) : 0 < (shortest r).digits := by
  by_contra hzero
  have hrank := rank_of_digits_eq_zero (d := shortest r) (by omega)
  rw [rank_shortest h] at hrank
  omega

end KeypadCalculator.Decimal
