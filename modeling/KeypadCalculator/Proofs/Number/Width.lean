import KeypadCalculator.Proofs.Number.Comparison

/-!
# The width of a result

The shortest decimal is found on the coarsest grid that has a decimal to offer
(`exists_shortest_eq`), so its last digit is not below a place that the value itself does without
(`le_exponent_shortest`), and its first one hardly above the first digit of the value
(`exponentOfFirst_shortest_le`). Together they bound the length of a positional result
(`length_write_le`).
-/

namespace KeypadCalculator

-- The powers below are those of the core library, as in the definitions.
attribute [local instance (high)] instPowNat instNatPowNat

namespace Decimal

open Binary (infinity fineUnits doublings significand)

variable {r n step j k : ℕ}

/-! ## The search for the shortest decimal -/

/-- The first hit among the numbers below `bound`. -/
theorem exists_first_of_findSome? {β : Type} {f : ℕ → Option β} {bound : ℕ} {hit : β}
    (h : (List.range bound).findSome? f = some hit) :
    ∃ i < bound, f i = some hit ∧ ∀ j < i, f j = none := by
  induction bound with
  | zero => cases h
  | succ bound ih =>
    rw [List.range_succ, List.findSome?_append] at h
    cases hbefore : (List.range bound).findSome? f with
    | some earlier =>
      rw [hbefore, Option.some_or] at h
      obtain ⟨i, hi, hfound⟩ := ih (hbefore.trans h)
      exact ⟨i, by omega, hfound⟩
    | none =>
      rw [hbefore, Option.none_or, List.findSome?_singleton] at h
      exact ⟨bound, by omega, h, fun j hj =>
        List.findSome?_eq_none_iff.1 hbefore j (List.mem_range.2 hj)⟩

/-- On a grid that has the exact value, there is nothing to round. -/
theorem neighbour?_of_dvd (h : r ≤ infinity) (hstep : 0 < step) (hdvd : step ∣ fineUnits r) :
    neighbour? r step = some (fineUnits r / step) := by
  have hround := nearestRank_fineUnits h
  unfold neighbour?
  dsimp only
  refine if_pos ?_
  generalize fineUnits r = exact at hdvd hround ⊢
  generalize 10 ^ (1074 : ℕ) = one at hround ⊢
  have hexact : exact / step * step = exact := Nat.div_mul_cancel hdvd
  have hhalf : decide (step ≤ 2 * (exact % step)) = false := by
    rw [Nat.mod_eq_zero_of_dvd hdvd]
    exact decide_eq_false (by omega)
  rw [hexact, hround, hhalf, Bool.and_false, Bool.not_false, Bool.and_true, beq_self_eq_true]

/-- A neighbour is one of the two whole numbers around the value. -/
theorem le_of_neighbour? (h : neighbour? r step = some n) : n ≤ fineUnits r / step + 1 := by
  unfold neighbour? at h
  dsimp only at h
  generalize fineUnits r / step = below at h ⊢
  split at h
  · exact Nat.le_succ_of_le (Nat.le_of_eq (Option.some.inj h).symm)
  · split at h
    · exact Nat.le_of_eq (Option.some.inj h).symm
    · cases h

/-- A neighbour has no more digits than the value has on its grid, or is the first number with one
more. -/
theorem le_ten_pow_of_neighbour? {zeros : ℕ} (h : neighbour? r (10 ^ zeros) = some n)
    (hzeros : zeros ≤ k) (hlt : fineUnits r < 10 ^ k) : n ≤ 10 ^ (k - zeros) := by
  have hquotient : fineUnits r / 10 ^ zeros < 10 ^ (k - zeros) := by
    rw [Nat.div_lt_iff_lt_mul (Nat.pow_pos (by decide)), ← Nat.pow_add, Nat.sub_add_cancel hzeros]
    exact hlt
  exact Nat.le_trans (le_of_neighbour? h) hquotient

/-- **The shortest decimal is on the coarsest grid that has a neighbour.** -/
theorem exists_shortest_eq (h : r ≤ infinity) : ∃ zeros n : ℕ,
    shortest r = ⟨n, zeros - 1074⟩ ∧ neighbour? r (10 ^ zeros) = some n ∧
      zeros < (Nat.toDigits 10 (fineUnits r)).length ∧
      ∀ coarser, zeros < coarser → coarser < (Nat.toDigits 10 (fineUnits r)).length →
        neighbour? r (10 ^ coarser) = none := by
  have hwidth : 0 < (Nat.toDigits 10 (fineUnits r)).length :=
    List.length_pos_iff.2 Nat.toDigits_ne_nil
  unfold shortest
  dsimp only
  generalize (Nat.toDigits 10 (fineUnits r)).length = width at hwidth
  generalize hsearch : List.findSome? _ (List.range width) = found
  cases found with
  | none =>
    -- the finest grid has every value
    have hfinest := List.findSome?_eq_none_iff.1 hsearch (width - 1) (List.mem_range.2 (by omega))
    rw [Nat.sub_add_cancel hwidth, Nat.sub_self, Nat.pow_zero,
      neighbour?_of_dvd h Nat.one_pos (Nat.one_dvd _)] at hfinest
    cases hfinest
  | some hit =>
    obtain ⟨kept, hkept, hhit, hnone⟩ := exists_first_of_findSome? hsearch
    obtain ⟨n, hn, rfl⟩ := Option.map_eq_some_iff.1 hhit
    refine ⟨width - (kept + 1), n, rfl, hn, by omega, fun coarser hfrom hbelow => ?_⟩
    have hcoarser := hnone (width - (coarser + 1)) (by omega)
    rw [Option.map_eq_none_iff] at hcoarser
    rwa [show width - (width - (coarser + 1) + 1) = coarser by omega] at hcoarser

/-! ## The places of the first and the last digit -/

theorem fineUnits_pos (hpos : 0 < r) : 0 < fineUnits r := by
  rw [fineUnits, Binary.units_eq]
  exact Nat.mul_pos (Nat.mul_pos (Binary.significand_pos hpos) (Nat.two_pow_pos _))
    (@Nat.pow_pos 5 1074 (by decide))

/-- The value ends in a zero for every time that the steps have doubled, in units of
`10 ^ -1074`. -/
theorem ten_pow_dvd_fineUnits (hk : k ≤ doublings r) (hk' : k ≤ 1074) :
    10 ^ k ∣ fineUnits r := by
  have hten : 10 ^ k = 2 ^ k * 5 ^ k := Nat.mul_pow 2 5 k
  have htwos : 2 ^ k ∣ Binary.units r := by
    rw [Binary.units_eq]
    exact Nat.dvd_mul_left_of_dvd (Nat.pow_dvd_pow 2 hk) _
  have hfives (places : ℕ) (h : k ≤ places) : 5 ^ k ∣ 5 ^ places := Nat.pow_dvd_pow 5 h
  rw [hten, fineUnits]
  exact Nat.mul_dvd_mul htwos (hfives 1074 hk')

theorem units_mul_five_pow_lt (hj : doublings r ≤ k + j) :
    Binary.units r * 5 ^ k < 2 ^ (53 + j) * 10 ^ k := by
  have hunits : Binary.units r < 2 ^ (53 + j) * 2 ^ k := by
    rw [Binary.units_eq]
    calc significand r * 2 ^ doublings r
        < 2 ^ (53 : ℕ) * 2 ^ doublings r :=
          Nat.mul_lt_mul_of_pos_right (Binary.significand_lt r) (Nat.two_pow_pos _)
      _ ≤ 2 ^ (53 : ℕ) * 2 ^ (k + j) :=
          Nat.mul_le_mul_left _ (Nat.pow_le_pow_right (by decide) hj)
      _ = 2 ^ (53 + j) * 2 ^ k := by rw [← Nat.pow_add, ← Nat.pow_add, Nat.add_comm k, Nat.add_assoc]
  have hten : 10 ^ k = 2 ^ k * 5 ^ k := Nat.mul_pow 2 5 k
  rw [hten, ← Nat.mul_assoc]
  exact Nat.mul_lt_mul_of_pos_right hunits (Nat.pow_pos (by decide))

/-- The shortest decimal has no digit below a place that the value does without. -/
theorem le_exponent_of_dvd (hpos : 0 < r) (h : r ≤ infinity) (hdvd : 10 ^ k ∣ fineUnits r) :
    (k : ℤ) - 1074 ≤ (shortest r).exponent := by
  obtain ⟨zeros, n, hshortest, -, -, hcoarsest⟩ := exists_shortest_eq h
  rw [hshortest]
  show (k : ℤ) - 1074 ≤ zeros - 1074
  by_contra hbelow
  have hlength : k < (Nat.toDigits 10 (fineUnits r)).length := by
    by_contra hlong
    have hlt := (Nat.length_toDigits_le_iff (by decide) (by omega)).1 (Nat.le_of_not_lt hlong)
    exact absurd (Nat.le_of_dvd (fineUnits_pos hpos) hdvd) (Nat.not_le_of_lt hlt)
  have hnone := hcoarsest k (by omega) hlength
  rw [neighbour?_of_dvd h (Nat.pow_pos (by decide)) hdvd] at hnone
  cases hnone

theorem le_exponent_shortest (hpos : 0 < r) (h : r ≤ infinity) (hk : k ≤ doublings r)
    (hk' : k ≤ 1074) : (k : ℤ) - 1074 ≤ (shortest r).exponent :=
  le_exponent_of_dvd hpos h (ten_pow_dvd_fineUnits hk hk')

/-- The first digit of the shortest decimal is at most one place above that of the value. -/
theorem exponentOfFirst_le_of_lt (h : r ≤ infinity) (hk : 0 < k) (hlt : fineUnits r < 10 ^ k) :
    (shortest r).exponentOfFirst ≤ k - 1074 := by
  obtain ⟨zeros, n, hshortest, hn, hzeros, -⟩ := exists_shortest_eq h
  have hwidth : (Nat.toDigits 10 (fineUnits r)).length ≤ k :=
    (Nat.length_toDigits_le_iff (by decide) hk).2 hlt
  have hdigits : (Nat.toDigits 10 n).length ≤ k - zeros + 1 := by
    rw [Nat.length_toDigits_le_iff (by decide) (by omega)]
    exact Nat.lt_of_le_of_lt (le_ten_pow_of_neighbour? hn (by omega) hlt)
      (Nat.pow_lt_pow_right (by decide) (Nat.lt_succ_self _))
  rw [hshortest, exponentOfFirst]
  dsimp only
  omega

theorem exponentOfFirst_shortest_le (h : r ≤ infinity) (hj : doublings r ≤ 1074 + j)
    (hk : 2 ^ (53 + j) ≤ 10 ^ k) : (shortest r).exponentOfFirst ≤ k := by
  have hlt : fineUnits r < 10 ^ (k + 1074) := by
    rw [Nat.pow_add]
    exact Nat.lt_of_lt_of_le (units_mul_five_pow_lt (k := 1074) hj) (Nat.mul_le_mul_right _ hk)
  have hplaces := exponentOfFirst_le_of_lt h (by omega) hlt
  push_cast at hplaces
  omega

/-- The significant digits are those from the first to the last digit at the most. -/
theorem length_significant_le (d : Decimal) :
    (d.significant.length : ℤ) ≤ d.exponentOfFirst - d.exponent + 1 := by
  obtain ⟨places, hplaces⟩ := d.exists_toDigits_eq
  rw [exponentOfFirst, hplaces, List.length_append, List.length_replicate]
  omega

end Decimal

namespace NumberFormat

open Binary (rank negative isFinite infinity doublings)
open Decimal (shortest)
open Numeral (pointed)

variable {x : Float} {r : ℕ}

/-! ## The length of a result -/

/-- Beside the digit before the point and the point itself, there are no places but those up to the
first digit and those down to the last one. -/
theorem length_positional_le (format : NumberFormat) (hformat : format.wholeEnding = [])
    (d : Decimal) : (format.positional d.significant d.exponentOfFirst).length
      ≤ 2 + d.exponentOfFirst.toNat + (-d.exponent).toNat := by
  have hlength := d.length_significant_le
  generalize d.exponentOfFirst = exponent at hlength ⊢
  by_cases hneg : exponent < 0
  · rw [positional, if_pos hneg]
    simp only [List.length_cons, List.length_append, List.length_replicate]
    omega
  · rw [positional_of_nonneg hformat (by omega), pointed]
    split
    · rename_i hwhole
      rw [List.drop_eq_nil_iff] at hwhole
      simp only [List.length_append, List.length_take, List.length_replicate]
      omega
    · simp only [List.length_cons, List.length_append, List.length_take, List.length_replicate,
        List.length_drop]
      omega

/-- A positional result is far from being too long for an expression. -/
theorem length_write_le (hfinite : isFinite x = true) (hx : result.IsPositional x) :
    (result.write x).length ≤ 97 := by
  by_cases hzero : rank x = 0
  · rw [write_of_rank_eq_zero rfl hzero]
    decide
  · have hpos : 0 < rank x := Nat.pos_of_ne_zero hzero
    have hle : rank x ≤ infinity := Binary.rank_le_infinity hfinite
    obtain ⟨hfrom, hbelow⟩ := hx.resolve_left hzero
    -- the ranks of the limits `1e-6` and `1e21` are in blocks whose steps are known
    have hfew : 1002 ≤ doublings (rank x) := by
      have hlimit : 1003 * 2 ^ (52 : ℕ) ≤ result.positionalFrom.rank := by decide +kernel
      unfold doublings
      omega
    have hmany : doublings (rank x) ≤ 1091 := by
      have hlimit : result.positionalBelow.rank ≤ 1093 * 2 ^ (52 : ℕ) := by decide +kernel
      unfold doublings
      omega
    have hlast := Decimal.le_exponent_shortest hpos hle hfew (by decide)
    have hfirst : (shortest (rank x)).exponentOfFirst ≤ 22 :=
      Decimal.exponentOfFirst_shortest_le (j := 17) hle hmany (by decide)
    have hpositional := length_positional_le result rfl (shortest (rank x))
    rw [write_eq_signText_append hfinite hzero, magnitude, if_pos ⟨hfrom, hbelow⟩,
      List.length_append]
    have hsign : (signText (negative x)).length ≤ 1 := by
      cases negative x <;> decide
    omega

end NumberFormat
end KeypadCalculator
