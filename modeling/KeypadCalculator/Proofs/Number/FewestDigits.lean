import KeypadCalculator.Proofs.Number.Nearest
import KeypadCalculator.Proofs.Number.Width

/-!
# Fewest digits

How many significant digits a decimal has depends on its value alone (`significant_congr`), and no
decimal that rounds to a rank has fewer of them than the shortest one
(`length_significant_shortest_le`). For rounding keeps order, so that a decimal on a coarse grid that
rounds to the rank makes one of the two neighbours on that grid do so too
(`neighbour?_ne_none`).
-/

namespace KeypadCalculator.Decimal

open Binary (nearestRank infinity fineUnits)

-- The powers of natural numbers below are those of the core library, as in the definitions.
attribute [local instance (high)] instPowNat instNatPowNat

variable {d e : Decimal} {r n m k step zeros : ℕ}

/-! ## Significant digits of a value -/

/-- A zero more at the end of the digits is not significant. -/
theorem significant_mul_ten (n : ℕ) (i j : ℤ) : significant ⟨n * 10, i⟩ = significant ⟨n, j⟩ := by
  rcases Nat.eq_zero_or_pos n with rfl | hpos
  · rfl
  · have hdigits : Nat.toDigits 10 (n * 10) = Nat.toDigits 10 n ++ ['0'] := by
      rw [Nat.toDigits_eq_if (by decide), if_neg (by omega), Nat.mul_div_cancel _ (by decide),
        Nat.mul_mod_left]
      rfl
    show (Nat.toDigits 10 (n * 10)).rdropWhile (· == '0') = _
    rw [hdigits, List.rdropWhile_concat_pos _ _ _ rfl]
    rfl

theorem significant_mul_ten_pow (n k : ℕ) (i j : ℤ) :
    significant ⟨n * 10 ^ k, i⟩ = significant ⟨n, j⟩ := by
  induction k generalizing i with
  | zero => rw [Nat.pow_zero, Nat.mul_one]; rfl
  | succ k ih =>
    rw [Nat.pow_succ, ← Nat.mul_assoc, significant_mul_ten _ i j]
    exact ih j

theorem significant_eq_of_exponent_le (h : d.value = e.value) (hle : d.exponent ≤ e.exponent) :
    d.significant = e.significant := by
  obtain ⟨k, hk⟩ := Int.eq_ofNat_of_zero_le (Int.sub_nonneg_of_le hle)
  have hdigits : d.digits = e.digits * 10 ^ k := by
    have hten : (10 : ℚ) ^ d.exponent ≠ 0 := zpow_ne_zero _ (by norm_num)
    rw [value, value, show e.exponent = k + d.exponent by omega, zpow_add₀ (by norm_num),
      zpow_natCast, ← mul_assoc, mul_left_inj' hten] at h
    exact_mod_cast h
  have hsignificant := significant_mul_ten_pow e.digits k d.exponent e.exponent
  rw [← hdigits] at hsignificant
  exact hsignificant

/-- Decimals of one value have the same significant digits. -/
theorem significant_congr (h : d.value = e.value) : d.significant = e.significant := by
  rcases le_total d.exponent e.exponent with hle | hle
  · exact significant_eq_of_exponent_le h hle
  · exact (significant_eq_of_exponent_le h.symm hle).symm

/-- The significant digits as a number, with the zeros after them. -/
theorem exists_digits_eq (d : Decimal) :
    ∃ m zeros, d.digits = m * 10 ^ zeros ∧ m < 10 ^ d.significant.length := by
  obtain ⟨zeros, hzeros⟩ := d.exists_toDigits_eq
  have hdigits : d.digits = Nat.ofDigitChars 10 d.significant 0 * 10 ^ zeros := by
    rw [Nat.mul_comm, ← Nat.ofDigitChars_replicate_zero, ← Nat.ofDigitChars_append, ← hzeros,
      Nat.ofDigitChars_toDigits (by decide) (by decide)]
  have hlength : (Nat.toDigits 10 d.digits).length = d.significant.length + zeros := by
    rw [hzeros, List.length_append, List.length_replicate]
  have hpos : 0 < (Nat.toDigits 10 d.digits).length := List.length_pos_iff.2 Nat.toDigits_ne_nil
  have hlt : d.digits < 10 ^ (d.significant.length + zeros) :=
    (Nat.length_toDigits_le_iff (by decide) (by omega)).1 (Nat.le_of_eq hlength)
  refine ⟨_, zeros, hdigits, ?_⟩
  rw [hdigits, Nat.pow_add] at hlt
  exact Nat.lt_of_mul_lt_mul_right hlt

/-- A number that has no more than `k` digits, or is the first one with more. -/
theorem length_significant_le_of_le {i : ℤ} (hk : 0 < k) (h : n ≤ 10 ^ k) :
    (significant ⟨n, i⟩).length ≤ k := by
  rcases Nat.lt_or_eq_of_le h with hlt | rfl
  · obtain ⟨zeros, hzeros⟩ := exists_toDigits_eq ⟨n, i⟩
    have hlength := (Nat.length_toDigits_le_iff (by decide) hk).2 hlt
    rw [hzeros, List.length_append] at hlength
    omega
  · have hone := significant_mul_ten_pow 1 k i 0
    rw [Nat.one_mul] at hone
    rw [hone]
    exact hk

/-! ## Neighbours on a grid -/

theorem nearestRank_mono_left {num num' den : ℕ} (hden : 0 < den) (h : num ≤ num') :
    nearestRank num den ≤ nearestRank num' den :=
  Binary.nearestRank_mono hden hden
    (div_le_div_of_nonneg_right (Nat.cast_le.2 h) den.cast_nonneg)

/-- What lies between two quotients of one rank has that rank too. -/
theorem nearestRank_eq_of_between {low high num den : ℕ} (hden : 0 < den)
    (hlow : nearestRank low den = r) (hhigh : nearestRank high den = r) (h : low ≤ num)
    (h' : num ≤ high) : nearestRank num den = r :=
  Nat.le_antisymm (hhigh ▸ nearestRank_mono_left hden h') (hlow ▸ nearestRank_mono_left hden h)

/-- A grid with any decimal of a rank has a neighbour of its value. -/
theorem neighbour?_ne_none (h : r ≤ infinity) (hstep : 0 < step)
    (hn : nearestRank (n * step) (10 ^ (1074 : ℕ)) = r) : neighbour? r step ≠ none := by
  have hone : 0 < 10 ^ (1074 : ℕ) := @Nat.pow_pos 10 1074 (by decide)
  have hexact := nearestRank_fineUnits h
  unfold neighbour?
  dsimp only
  generalize fineUnits r = exact at hexact
  generalize 10 ^ (1074 : ℕ) = one at hn hone hexact
  have hlow : exact / step * step ≤ exact := Nat.div_mul_le_self _ _
  have hhigh : exact ≤ (exact / step + 1) * step := by
    rw [Nat.mul_comm]
    exact Nat.le_of_lt (Nat.lt_mul_div_succ exact hstep)
  -- one of the neighbours is between the decimal of the grid and the value
  have hneighbour : nearestRank (exact / step * step) one = r ∨
      nearestRank ((exact / step + 1) * step) one = r := by
    rcases Nat.lt_or_ge (exact / step) n with hlt | hge
    · exact .inr (nearestRank_eq_of_between hone hexact hn hhigh (Nat.mul_le_mul_right step hlt))
    · exact .inl (nearestRank_eq_of_between hone hn hexact (Nat.mul_le_mul_right step hge) hlow)
  by_cases habove : nearestRank ((exact / step + 1) * step) one = r
  · rw [if_pos (beq_iff_eq.2 habove)]
    split <;> exact Option.some_ne_none _
  · rw [if_pos (by simp [hneighbour.resolve_right habove, habove])]
    exact Option.some_ne_none _

/-! ## The shortest decimal has the fewest digits -/

/-- The first digit of a number counts. -/
theorem ten_pow_le_of_pos (hn : 0 < n) : 10 ^ ((Nat.toDigits 10 n).length - 1) ≤ n := by
  rcases Nat.eq_zero_or_pos ((Nat.toDigits 10 n).length - 1) with hzero | hpos
  · rw [hzero]
    exact hn
  · refine Nat.le_of_not_lt fun hlt => ?_
    have := (Nat.length_toDigits_le_iff (by decide) hpos).2 hlt
    omega

theorem length_significant_pos (h : 0 < d.rank) : 0 < d.significant.length := by
  obtain ⟨m, zeros, hdigits, hm⟩ := d.exists_digits_eq
  refine Nat.pos_of_ne_zero fun hnone => ?_
  rw [hnone, Nat.pow_zero, Nat.lt_one_iff] at hm
  rw [rank_of_digits_eq_zero (by rw [hdigits, hm, Nat.zero_mul])] at h
  exact absurd h (Nat.lt_irrefl 0)

/-- A decimal of few digits makes a coarse grid have a decimal of its rank. -/
theorem exists_grid_of_rank {width : ℕ} (hpos : 0 < r) (h : r ≤ infinity) (hd : d.rank = r)
    (hwidth : 10 ^ (width - 1) ≤ fineUnits r) (hlength : d.significant.length ≤ width) :
    ∃ n, nearestRank (n * 10 ^ (width - d.significant.length)) (10 ^ (1074 : ℕ)) = r := by
  obtain ⟨m, zeros, hdigits, hm⟩ := d.exists_digits_eq
  have hsome : 0 < d.significant.length := length_significant_pos (hd ▸ hpos)
  generalize d.significant.length = length at hm hlength hsome
  have hvalue : d.value = m * 10 ^ (zeros + d.exponent) := by
    rw [value, hdigits, zpow_add₀ (by norm_num), zpow_natCast, ← mul_assoc]
    push_cast
    rfl
  have hwhole : 10 ^ (length - 1) * 10 ^ (width - length) = 10 ^ (width - 1) := by
    rw [← Nat.pow_add]
    congr 1
    omega
  generalize width - length = gap at hwhole ⊢
  rcases le_or_gt ((gap : ℤ) - 1074) (zeros + d.exponent) with hcoarse | hfine
  · -- the decimal is on the grid
    obtain ⟨k, hk⟩ := Int.eq_ofNat_of_zero_le (Int.sub_nonneg_of_le hcoarse)
    refine ⟨m * 10 ^ k, ?_⟩
    have hrank := rank_mk_sub (m * 10 ^ k) gap 1074
    rw [← hrank, ← hd]
    apply rank_congr
    have hexponent : zeros + d.exponent = k + ((gap : ℤ) - 1074) := by omega
    rw [hvalue, hexponent, zpow_add₀ (by norm_num), zpow_natCast, ← mul_assoc, value]
    push_cast
    rfl
  · -- the decimal is below the first number of as many digits as the value
    refine ⟨10 ^ (length - 1), Nat.le_antisymm ?_ ?_⟩
    · have hexact := nearestRank_fineUnits h
      have hone : 0 < 10 ^ (1074 : ℕ) := @Nat.pow_pos 10 1074 (by decide)
      generalize 10 ^ (1074 : ℕ) = one at hexact hone ⊢
      rw [hwhole]
      exact hexact ▸ nearestRank_mono_left hone hwidth
    · have hrank := rank_mk_sub (10 ^ (length - 1)) gap 1074
      rw [← hrank, ← hd]
      apply rank_mono
      have hm' : (m : ℚ) ≤ 10 ^ length := by exact_mod_cast hm.le
      have hten (i : ℤ) : (0 : ℚ) < 10 ^ i := zpow_pos (by norm_num) i
      calc d.value = m * 10 ^ (zeros + d.exponent) := hvalue
        _ ≤ 10 ^ length * 10 ^ (zeros + d.exponent) :=
          mul_le_mul_of_nonneg_right hm' (hten _).le
        _ = 10 ^ (length + (zeros + d.exponent)) := by
          rw [← zpow_natCast, ← zpow_add₀ (by norm_num)]
        _ ≤ 10 ^ ((length - 1 : ℕ) + ((gap : ℤ) - 1074)) :=
          zpow_le_zpow_right₀ (by norm_num) (by omega)
        _ = value ⟨10 ^ (length - 1), (gap : ℤ) - 1074⟩ := by
          rw [zpow_add₀ (by norm_num), zpow_natCast, value]
          push_cast
          rfl

/-- **No decimal that rounds to a number has fewer digits than the shortest one.** -/
theorem length_significant_shortest_le (hpos : 0 < r) (h : r ≤ infinity) (hd : d.rank = r) :
    (shortest r).significant.length ≤ d.significant.length := by
  obtain ⟨zeros, n, hshortest, hn, hzeros, hcoarsest⟩ := exists_shortest_eq h
  have hlow := ten_pow_le_of_pos (fineUnits_pos hpos)
  have hhigh : fineUnits r < 10 ^ (Nat.toDigits 10 (fineUnits r)).length :=
    (Nat.length_toDigits_le_iff (by decide) (by omega)).1 (Nat.le_refl _)
  generalize (Nat.toDigits 10 (fineUnits r)).length = width at hzeros hcoarsest hlow hhigh
  have hle : n ≤ 10 ^ (width - zeros) := le_ten_pow_of_neighbour? hn (Nat.le_of_lt hzeros) hhigh
  rw [hshortest]
  refine Nat.le_trans (length_significant_le_of_le (by omega) hle) ?_
  -- otherwise the decimal would be on a coarser grid
  by_contra hfew
  have hdigits : 0 < d.significant.length := length_significant_pos (hd ▸ hpos)
  obtain ⟨m, hm⟩ := exists_grid_of_rank hpos h hd hlow (by omega)
  exact neighbour?_ne_none h (Nat.pow_pos (by decide)) hm (hcoarsest _ (by omega) (by omega))

end KeypadCalculator.Decimal
