import KeypadCalculator.Proofs.Number.Comparison
import KeypadCalculator.Proofs.Number.Value

/-!
# Nearest doubles

`RoundsTo q x` says what it is for a double to be the rounding of a rational number: it is nearest
to it of all finite doubles, and where two are equally near, the one whose word is even. Between two
ranks the middle of their values decides, for the computed rank (`nearestRank_le_iff`) as for
`RoundsTo` (`roundsTo_iff`), so the two agree on decimals (`Decimal.roundsTo_iff_rank_eq`, and
`Decimal.roundsTo_iff_rank_eq_zero` for the zeros) and rounding keeps order (`nearestRank_mono`).

`ReadAs q x` adds what becomes of the numbers that are too large to be rounded. A decimal is made
the double that its value is read as (`Decimal.toFloat_eq_iff`), and so is a numeral
(`Numeral.read?_eq_some_iff`).
-/

namespace KeypadCalculator

namespace Binary

open Float.Model
open Float.Model.UnpackedFloat (Sign)

-- The powers of natural numbers below are those of the core library, as in the definitions.
attribute [local instance (high)] instPowNat instNatPowNat

variable {q p a b w : ℚ} {r s t num den num' den' : ℕ} {negated : Bool} {x y : Float}

/-! ## Magnitudes -/

/-- The values of ranks are multiples of it. -/
def unit : ℚ :=
  2 ^ (-1074 : ℤ)

theorem unit_pos : 0 < unit :=
  zpow_pos (by norm_num) _

/-- The value of a rank. -/
def magnitude (r : ℕ) : ℚ :=
  units r * unit

theorem two_pow_mul_unit : ((2 ^ (1074 : ℕ) : ℕ) : ℚ) * unit = 1 := by
  have hinverse (k : ℕ) : ((2 ^ k : ℕ) : ℚ) * 2 ^ (-(k : ℤ)) = 1 := by
    rw [zpow_neg, zpow_natCast, Nat.cast_pow, Nat.cast_ofNat]
    exact mul_inv_cancel₀ (by positivity)
  exact hinverse 1074

theorem units_succ (r : ℕ) : units (r + 1) = units r + 2 ^ doublings r := by
  have hr := doublings_mul_le r
  rw [units_eq, units_eq]
  have hcases : (doublings (r + 1) = doublings r ∧ significand (r + 1) = significand r + 1) ∨
      (doublings (r + 1) = doublings r + 1 ∧ significand r + 1 = 2 ^ (53 : ℕ) ∧
        significand (r + 1) = 2 ^ (52 : ℕ)) := by
    unfold significand doublings at *
    omega
  rcases hcases with ⟨hd, hs⟩ | ⟨hd, hs, hs'⟩
  · rw [hd, hs, Nat.succ_mul]
  · -- the first rank of a block
    have hpow : 2 ^ (doublings r + 1) = 2 * 2 ^ doublings r := Nat.pow_succ'
    calc significand (r + 1) * 2 ^ doublings (r + 1)
        = 2 ^ (52 : ℕ) * (2 * 2 ^ doublings r) := by rw [hs', hd, hpow]
      _ = (significand r + 1) * 2 ^ doublings r := by rw [hs, ← Nat.mul_assoc, ← Nat.pow_succ]
      _ = significand r * 2 ^ doublings r + 2 ^ doublings r := Nat.succ_mul _ _

theorem units_strictMono : StrictMono units :=
  strictMono_nat_of_lt_succ fun r => by
    rw [units_succ]
    exact Nat.lt_add_of_pos_right (Nat.two_pow_pos _)

theorem magnitude_strictMono : StrictMono magnitude := fun r s h => by
  have hunits : (units r : ℚ) < units s := by exact_mod_cast units_strictMono h
  exact mul_lt_mul_of_pos_right hunits unit_pos

theorem magnitude_zero : magnitude 0 = 0 := by
  rw [magnitude, show units 0 = 0 by decide, Nat.cast_zero, zero_mul]

theorem magnitude_nonneg (r : ℕ) : 0 ≤ magnitude r := by
  rw [← magnitude_zero]
  exact magnitude_strictMono.monotone (Nat.zero_le r)

theorem magnitude_succ (r : ℕ) : magnitude (r + 1) = magnitude r + 2 ^ doublings r * unit := by
  rw [magnitude, units_succ, magnitude]
  push_cast
  ring

/-! ## Rounding by middles -/

/-- Halfway between the value of a rank and that of the next one. -/
def middle (r : ℕ) : ℚ :=
  (magnitude r + magnitude (r + 1)) / 2

/-- `q` is rounded to `r` or a rank below: it is below the middle above `r`, or it is that middle and
the even rank is `r`. -/
def RoundsAtMost (q : ℚ) (r : ℕ) : Prop :=
  q < middle r ∨ (q = middle r ∧ r % 2 = 0)

instance (q : ℚ) (r : ℕ) : Decidable (RoundsAtMost q r) :=
  inferInstanceAs (Decidable (_ ∨ _))

theorem middle_eq (r : ℕ) :
    middle r = (significand r + 1 / 2) * ((2 ^ doublings r : ℕ) : ℚ) * unit := by
  rw [middle, magnitude_succ, magnitude, units_eq]
  push_cast
  ring

theorem magnitude_lt_middle (r : ℕ) : magnitude r < middle r := by
  have := magnitude_strictMono (Nat.lt_succ_self r)
  unfold middle
  linarith

theorem middle_lt_magnitude_succ (r : ℕ) : middle r < magnitude (r + 1) := by
  have := magnitude_strictMono (Nat.lt_succ_self r)
  unfold middle
  linarith

theorem RoundsAtMost.le_middle (h : RoundsAtMost q r) : q ≤ middle r :=
  h.elim le_of_lt fun h => le_of_eq h.1

theorem RoundsAtMost.of_le (h : RoundsAtMost q r) (hp : p ≤ q) : RoundsAtMost p r := by
  rcases lt_or_eq_of_le hp with hlt | rfl
  · exact .inl (lt_of_lt_of_le hlt h.le_middle)
  · exact h

theorem middle_le_of_not_roundsAtMost (h : ¬ RoundsAtMost q r) : middle r ≤ q :=
  le_of_not_gt fun hlt => h (.inl hlt)

/-- Halved as often as makes it so, a number has 53 bits, or less if there is nothing to halve. -/
theorem div_two_pow_of_log2 {quotient d : ℕ} (hd : quotient.log2 - 52 = d) :
    quotient / 2 ^ d < 2 ^ (53 : ℕ) ∧ (d = 0 ∨ 2 ^ (52 : ℕ) ≤ quotient / 2 ^ d) := by
  have hlt : quotient < 2 ^ (d + 53) :=
    Nat.lt_of_lt_of_le Nat.lt_log2_self (Nat.pow_le_pow_right (by decide) (by omega))
  rw [Nat.pow_add] at hlt
  refine ⟨Nat.div_lt_of_lt_mul hlt, ?_⟩
  by_cases hzero : d = 0
  · exact .inl hzero
  · right
    have hle : 2 ^ (52 + d) ≤ quotient := by
      rw [show 52 + d = quotient.log2 by omega]
      exact Nat.log2_self_le (by rintro rfl; exact hzero (by rw [← hd]; decide))
    rw [Nat.pow_add] at hle
    exact (Nat.le_div_iff_mul_le (Nat.two_pow_pos d)).2 hle

/-- The rank below a quotient, and whether it is rounded to that or to the next one. -/
theorem exists_nearestRank_eq (num : ℕ) (hden : 0 < den) : ∃ k rest,
    num * 2 ^ (1074 : ℕ) = units k * den + rest ∧ rest < den * 2 ^ doublings k ∧
      nearestRank num den = min (if 2 * rest < den * 2 ^ doublings k ∨
        (2 * rest = den * 2 ^ doublings k ∧ k % 2 = 0) then k else k + 1) infinity := by
  unfold nearestRank
  generalize num * 2 ^ (1074 : ℕ) = scaled
  dsimp only
  generalize hd : (scaled / den).log2 - 52 = d
  generalize hm : scaled / (den * 2 ^ d) = m
  have hstep : 0 < den * 2 ^ d := Nat.mul_pos hden (Nat.two_pow_pos d)
  have hbits : m < 2 ^ (53 : ℕ) ∧ (d = 0 ∨ 2 ^ (52 : ℕ) ≤ m) := by
    rw [← hm, ← Nat.div_div_eq_div_mul]
    exact div_two_pow_of_log2 hd
  have hdoublings : doublings (d * 2 ^ (52 : ℕ) + m) = d := by
    unfold doublings
    omega
  refine ⟨d * 2 ^ (52 : ℕ) + m, scaled % (den * 2 ^ d), ?_, ?_, ?_⟩
  · have hunits : units (d * 2 ^ (52 : ℕ) + m) = m * 2 ^ d := by
      rw [units_eq, significand, hdoublings, Nat.add_sub_cancel_left]
    have hdiv := Nat.div_add_mod scaled (den * 2 ^ d)
    rw [hm] at hdiv
    rw [hunits, Nat.mul_assoc, Nat.mul_comm m, Nat.mul_comm _ den]
    exact hdiv.symm
  · rw [hdoublings]
    exact Nat.mod_lt _ hstep
  · have hparity : (d * 2 ^ (52 : ℕ) + m) % 2 = m % 2 := by omega
    rw [hdoublings, hparity, roundHalfEven, hm]
    congr 1
    split
    · rfl
    · rw [Nat.add_assoc]

/-- The rank below a quotient, and the middle above it. -/
theorem exists_magnitude_le (num : ℕ) (hden : 0 < den) : ∃ k,
    magnitude k ≤ (num : ℚ) / den ∧ (num : ℚ) / den < magnitude (k + 1) ∧
      nearestRank num den
        = min (if RoundsAtMost ((num : ℚ) / den) k then k else k + 1) infinity := by
  obtain ⟨k, rest, hscaled, hrest, hnearest⟩ := exists_nearestRank_eq num hden
  have hden' : (0 : ℚ) < den := by exact_mod_cast hden
  have hunit := unit_pos
  have hquotient : (num : ℚ) / den = magnitude k + rest / den * unit := by
    have hone := two_pow_mul_unit
    generalize 2 ^ (1074 : ℕ) = one at hscaled hone
    have hcast : (num : ℚ) * one = units k * den + rest := by exact_mod_cast hscaled
    calc (num : ℚ) / den = num * (one * unit) / den := by rw [hone, mul_one]
      _ = (units k * den + rest) * unit / den := by rw [← mul_assoc, hcast]
      _ = magnitude k + rest / den * unit := by
        rw [magnitude]
        field_simp
  have hmiddle : middle k = magnitude k + 2 ^ doublings k / 2 * unit := by
    rw [middle, magnitude_succ]
    ring
  have hrest' : (rest : ℚ) < den * 2 ^ doublings k := by exact_mod_cast hrest
  refine ⟨k, ?_, ?_, ?_⟩
  · rw [hquotient]
    exact le_add_of_nonneg_right
      (mul_nonneg (div_nonneg rest.cast_nonneg den.cast_nonneg) hunit.le)
  · rw [hquotient, magnitude_succ]
    have hlt : (rest : ℚ) / den < 2 ^ doublings k := by
      rw [div_lt_iff₀ hden']
      linarith
    linarith [mul_lt_mul_of_pos_right hlt hunit]
  · have hlt : (num : ℚ) / den < middle k ↔ 2 * rest < den * 2 ^ doublings k := by
      rw [hquotient, hmiddle, add_lt_add_iff_left, mul_lt_mul_iff_left₀ hunit,
        div_lt_div_iff₀ hden' two_pos, mul_comm (rest : ℚ), mul_comm _ (den : ℚ)]
      exact_mod_cast Iff.rfl
    have heq : (num : ℚ) / den = middle k ↔ 2 * rest = den * 2 ^ doublings k := by
      rw [hquotient, hmiddle, add_right_inj, mul_left_inj' hunit.ne',
        div_eq_div_iff hden'.ne' two_ne_zero, mul_comm (rest : ℚ), mul_comm _ (den : ℚ)]
      exact_mod_cast Iff.rfl
    rw [hnearest]
    simp only [RoundsAtMost, hlt, heq]

/-- **The middles decide where a quotient is rounded to.** -/
theorem nearestRank_le_iff (hden : 0 < den) (hr : r < infinity) :
    nearestRank num den ≤ r ↔ RoundsAtMost ((num : ℚ) / den) r := by
  obtain ⟨k, hlow, hhigh, hnearest⟩ := exists_magnitude_le num hden
  rw [hnearest]
  generalize (num : ℚ) / den = q at hlow hhigh
  rcases Nat.lt_trichotomy r k with hlt | rfl | hlt
  · -- the middle above `r` is below the value of `k`
    have hnot : ¬ RoundsAtMost q r := fun h => by
      have hle : magnitude (r + 1) ≤ magnitude k := magnitude_strictMono.monotone hlt
      have := middle_lt_magnitude_succ r
      have := h.le_middle
      linarith
    refine iff_of_false ?_ hnot
    split <;> omega
  · by_cases h : RoundsAtMost q r
    · rw [if_pos h]
      exact iff_of_true (Nat.min_le_left _ _) h
    · rw [if_neg h]
      exact iff_of_false (by omega) h
  · have hyes : RoundsAtMost q r := by
      left
      have hle : magnitude (k + 1) ≤ magnitude r := magnitude_strictMono.monotone hlt
      have := magnitude_lt_middle r
      linarith
    refine iff_of_true ?_ hyes
    split <;> omega

theorem nearestRank_le_infinity (num den : ℕ) : nearestRank num den ≤ infinity :=
  Nat.min_le_right _ _

/-- Rounding keeps order. -/
theorem nearestRank_mono (hden : 0 < den) (hden' : 0 < den')
    (h : (num : ℚ) / den ≤ (num' : ℚ) / den') : nearestRank num den ≤ nearestRank num' den' := by
  rcases Nat.lt_or_ge (nearestRank num' den') infinity with hlt | hge
  · rw [nearestRank_le_iff hden hlt]
    exact ((nearestRank_le_iff hden' hlt).1 (Nat.le_refl _)).of_le h
  · exact Nat.le_trans (nearestRank_le_infinity num den) hge

/-! ## The value of a double -/

/-- The number that a finite double is. -/
def toRat (x : Float) : ℚ :=
  match x.toModel.unpack with
  | .finite s m e _ => (s.apply m : ℚ) * 2 ^ e
  | _ => 0

/-- The factor of the sign of a number that is negative or not. -/
def signFactor (negated : Bool) : ℚ :=
  if negated then -1 else 1

theorem abs_signFactor_mul (negated : Bool) (q : ℚ) : |signFactor negated * q| = |q| := by
  cases negated <;> simp [signFactor]

theorem signFactor_mul_signFactor_mul (negated : Bool) (q : ℚ) :
    signFactor negated * (signFactor negated * q) = q := by
  cases negated <;> simp [signFactor]

theorem signFactor_mul_of_ne {other : Bool} (h : other ≠ negated) (q : ℚ) :
    signFactor negated * (signFactor other * q) = -q := by
  cases negated <;> cases other <;> simp [signFactor] at h ⊢

theorem toRat_ofRank (hr : r < infinity) :
    toRat (ofRank negated r) = signFactor negated * magnitude r := by
  rcases Nat.eq_zero_or_pos r with rfl | hpos
  · obtain ⟨s, hs⟩ := exists_unpack_eq_zero (rank_ofRank (s := negated) (Nat.zero_le infinity))
    rw [toRat, hs, magnitude_zero, mul_zero]
  · obtain ⟨hm, hunpack⟩ := exists_unpack_ofRank negated hpos hr
    have hscale : (2 : ℚ) ^ ((doublings r : ℤ) - 1074) = 2 ^ doublings r * unit := by
      rw [sub_eq_add_neg, zpow_add₀ two_ne_zero, zpow_natCast, unit]
    rw [toRat, hunpack, magnitude, units_eq]
    dsimp only
    rw [hscale]
    cases negated <;> simp [signOf, Sign.apply, signFactor] <;> ring

theorem toRat_eq (hfinite : isFinite x = true) :
    toRat x = signFactor (negative x) * magnitude (rank x) := by
  have hlt : rank x < infinity := rank_lt_infinity hfinite
  rw [← toRat_ofRank hlt, ofRank_negative_rank (Nat.le_of_lt hlt)]

theorem signFactor_mul_toRat (hfinite : isFinite x = true) :
    signFactor (negative x) * toRat x = magnitude (rank x) := by
  rw [toRat_eq hfinite, signFactor_mul_signFactor_mul]

/-- On the side of any sign, each finite rank is the value of a double. -/
theorem exists_signFactor_mul_toRat_eq (negated : Bool) (hr : r < infinity) :
    ∃ y, isFinite y = true ∧ signFactor negated * toRat y = magnitude r :=
  ⟨ofRank negated r, isFinite_ofRank hr, by rw [toRat_ofRank hr, signFactor_mul_signFactor_mul]⟩

/-! ## Rounding to a double -/

/-- Halfway between the largest finite double and `2 ^ 1024`. -/
def overflow : ℚ :=
  2 ^ (1024 : ℕ) - 2 ^ (970 : ℕ)

/-- Rounding to the nearest finite double, a tie going to the one whose word is even. -/
structure RoundsTo (q : ℚ) (x : Float) : Prop where
  finite : isFinite x = true
  /-- The numbers beyond are rounded to infinity. -/
  bounded : |q| < overflow
  nearest : ∀ y, isFinite y = true → |q - toRat x| ≤ |q - toRat y|
  even : ∀ y, isFinite y = true → toRat y ≠ toRat x → |q - toRat y| = |q - toRat x| →
    x.toBits.toNat % 2 = 0

/-- The middle above the largest finite double. -/
theorem middle_eq_overflow (h : r + 1 = infinity) : middle r = overflow := by
  obtain rfl : r = infinity - 1 := by omega
  have hlast : doublings (infinity - 1) = 1074 + (970 + 1) := by decide
  have hbits : significand (infinity - 1) = 2 ^ (53 : ℕ) - 1 := by decide
  have hscale (k : ℕ) : ((2 ^ (1074 + (k + 1)) : ℕ) : ℚ) * unit = 2 * 2 ^ k := by
    have hone := two_pow_mul_unit
    rw [Nat.pow_add]
    generalize 2 ^ (1074 : ℕ) = one at hone ⊢
    rw [Nat.cast_mul, mul_right_comm, hone, one_mul, Nat.cast_pow, Nat.cast_ofNat, pow_succ']
  have htop : (2 : ℚ) ^ (1024 : ℕ) = 2 ^ (54 : ℕ) * 2 ^ (970 : ℕ) := pow_add 2 54 970
  rw [middle_eq, hlast, hbits, mul_assoc, hscale 970, overflow, htop]
  generalize (2 : ℚ) ^ (970 : ℕ) = step
  norm_num
  ring

/-- Of two numbers the larger one is nearer from their middle on. -/
theorem abs_sub_le_iff_middle_le (h : a < b) : |p - b| ≤ |p - a| ↔ (a + b) / 2 ≤ p := by
  have hsquares : (p - a) ^ 2 - (p - b) ^ 2 = 2 * (b - a) * (p - (a + b) / 2) := by ring
  rw [← sq_le_sq, ← sub_nonneg, hsquares, mul_nonneg_iff_of_pos_left (by linarith), sub_nonneg]

theorem abs_sub_le_iff_le_middle (h : a < b) : |p - a| ≤ |p - b| ↔ p ≤ (a + b) / 2 := by
  have hsquares : (p - b) ^ 2 - (p - a) ^ 2 = 2 * (b - a) * ((a + b) / 2 - p) := by ring
  rw [← sq_le_sq, ← sub_nonneg, hsquares, mul_nonneg_iff_of_pos_left (by linarith), sub_nonneg]

/-- In the middle both are equally near. -/
theorem abs_sub_eq_of_eq_middle (hp : p = (a + b) / 2) : |p - a| = |p - b| := by
  rw [← sq_eq_sq_iff_abs_eq_abs, hp]
  ring

/-- From the middle above a rank on, no value below is nearer than that of the next rank. -/
theorem nearest_of_middle_le (hp : middle r ≤ p) (hw : w ≤ magnitude r) :
    |p - magnitude (r + 1)| ≤ |p - w| ∧ (|p - w| = |p - magnitude (r + 1)| → p = middle r) := by
  have hlt : w < magnitude (r + 1) := lt_of_le_of_lt hw (magnitude_strictMono (Nat.lt_succ_self r))
  have hmiddle : (w + magnitude (r + 1)) / 2 ≤ middle r := by
    unfold middle
    linarith
  refine ⟨(abs_sub_le_iff_middle_le hlt).2 (hmiddle.trans hp), fun htie => ?_⟩
  exact le_antisymm (((abs_sub_le_iff_le_middle hlt).1 htie.le).trans hmiddle) hp

/-- Up to the middle above a rank, no value above is nearer than that of the rank. -/
theorem nearest_of_le_middle (hp : p ≤ middle r) (hw : magnitude (r + 1) ≤ w) :
    |p - magnitude r| ≤ |p - w| ∧ (|p - w| = |p - magnitude r| → p = middle r) := by
  have hlt : magnitude r < w := lt_of_lt_of_le (magnitude_strictMono (Nat.lt_succ_self r)) hw
  have hmiddle : middle r ≤ (magnitude r + w) / 2 := by
    unfold middle
    linarith
  refine ⟨(abs_sub_le_iff_le_middle hlt).2 (hp.trans hmiddle), fun htie => ?_⟩
  exact le_antisymm hp (hmiddle.trans ((abs_sub_le_iff_middle_le hlt).1 htie.le))

/-! ## The doubles around a number -/

/-- A sign puts a magnitude at the value of a rank, or not between those of its neighbours. -/
theorem signFactor_mul_magnitude_cases (r t : ℕ) (first second : Bool) :
    signFactor first * (signFactor second * magnitude t) = magnitude (r + 1) ∨
      signFactor first * (signFactor second * magnitude t) ≤ magnitude r ∨
      magnitude (r + 2) ≤ signFactor first * (signFactor second * magnitude t) := by
  by_cases hsign : second = first
  · subst hsign
    rw [signFactor_mul_signFactor_mul]
    rcases Nat.lt_trichotomy t (r + 1) with h | rfl | h
    · exact .inr (.inl (magnitude_strictMono.monotone (Nat.le_of_lt_succ h)))
    · exact .inl rfl
    · exact .inr (.inr (magnitude_strictMono.monotone h))
  · rw [signFactor_mul_of_ne hsign]
    have hr := magnitude_nonneg r
    have ht := magnitude_nonneg t
    exact .inr (.inl (by linarith))

/-- Distances are the same on the other side of zero. -/
theorem abs_signFactor_mul_sub (negated : Bool) (q a : ℚ) :
    |signFactor negated * q - signFactor negated * a| = |q - a| := by
  rw [← mul_sub, abs_signFactor_mul]

theorem toBits_mod_two (x : Float) : x.toBits.toNat % 2 = rank x % 2 := by
  unfold rank
  omega

/-- Finite ranks are for numbers below the overflow. -/
theorem RoundsAtMost.lt_overflow (h : RoundsAtMost q r) (hr : r < infinity) : q < overflow := by
  rcases Nat.lt_or_ge (r + 1) infinity with hlt | hge
  · have hle : magnitude (r + 1) ≤ magnitude (infinity - 1) :=
      magnitude_strictMono.monotone (by omega)
    have := h.le_middle
    have := middle_lt_magnitude_succ r
    have := magnitude_lt_middle (infinity - 1)
    have := middle_eq_overflow (r := infinity - 1) (by decide)
    linarith
  · -- the last finite rank is odd, so that the tie above it goes to infinity
    rw [← middle_eq_overflow (r := r) (by omega)]
    refine h.elim id fun htie => ?_
    unfold infinity at hr hge
    omega

theorem RoundsTo.of_roundsAtMost (hfinite : isFinite x = true) (hx : rank x = r + 1)
    (habove : RoundsAtMost (signFactor (negative x) * q) (r + 1))
    (hbelow : ¬ RoundsAtMost (signFactor (negative x) * q) r) : RoundsTo q x := by
  have hlt : r + 1 < infinity := hx ▸ rank_lt_infinity hfinite
  have hhigh := habove.le_middle
  have hlow := middle_le_of_not_roundsAtMost hbelow
  have hvalue : signFactor (negative x) * toRat x = magnitude (r + 1) :=
    hx ▸ signFactor_mul_toRat hfinite
  have hcases {y : Float} (hy : isFinite y = true) :
      signFactor (negative x) * toRat y = magnitude (r + 1) ∨
      signFactor (negative x) * toRat y ≤ magnitude r ∨
      magnitude (r + 2) ≤ signFactor (negative x) * toRat y := by
    rw [toRat_eq hy]
    exact signFactor_mul_magnitude_cases r (rank y) (negative x) (negative y)
  refine ⟨hfinite, ?_, fun y hy => ?_, fun y hy hne htie => ?_⟩
  · rw [← abs_signFactor_mul (negative x), abs_of_nonneg]
    · exact habove.lt_overflow hlt
    · have := magnitude_lt_middle r
      have := magnitude_nonneg r
      linarith
  · rw [← abs_signFactor_mul_sub (negative x) q (toRat x),
      ← abs_signFactor_mul_sub (negative x) q (toRat y), hvalue]
    rcases hcases hy with heq | hle | hge
    · rw [heq]
    · exact (nearest_of_middle_le hlow hle).1
    · exact (nearest_of_le_middle hhigh hge).1
  · rw [← abs_signFactor_mul_sub (negative x) q (toRat x),
      ← abs_signFactor_mul_sub (negative x) q (toRat y), hvalue] at htie
    rw [toBits_mod_two, hx]
    rcases hcases hy with heq | hle | hge
    · refine absurd ?_ hne
      rw [← signFactor_mul_signFactor_mul (negative x) (toRat y), heq, ← hvalue,
        signFactor_mul_signFactor_mul]
    · have := (nearest_of_middle_le hlow hle).2 htie
      by_contra hodd
      exact hbelow (.inr ⟨this, by omega⟩)
    · have := (nearest_of_le_middle hhigh hge).2 htie
      exact habove.elim (fun hlt => absurd this hlt.ne) fun h => h.2

/-- The doubles of the same sign stand for the ranks, and none is nearer. -/
theorem RoundsTo.nearest_rank (h : RoundsTo q x) (ht : t < infinity) :
    |signFactor (negative x) * q - magnitude (rank x)|
      ≤ |signFactor (negative x) * q - magnitude t| := by
  obtain ⟨y, hy, hvalue⟩ := exists_signFactor_mul_toRat_eq (negative x) ht
  rw [← signFactor_mul_toRat h.finite, ← hvalue, abs_signFactor_mul_sub, abs_signFactor_mul_sub]
  exact h.nearest y hy

theorem RoundsTo.even_rank (h : RoundsTo q x) (ht : t < infinity) (hne : t ≠ rank x)
    (htie : |signFactor (negative x) * q - magnitude t|
      = |signFactor (negative x) * q - magnitude (rank x)|) : rank x % 2 = 0 := by
  obtain ⟨y, hy, hvalue⟩ := exists_signFactor_mul_toRat_eq (negative x) ht
  rw [← signFactor_mul_toRat h.finite, ← hvalue, abs_signFactor_mul_sub, abs_signFactor_mul_sub]
    at htie
  rw [← toBits_mod_two]
  refine h.even y hy (fun heq => hne ?_) htie
  rw [heq, signFactor_mul_toRat h.finite] at hvalue
  exact (magnitude_strictMono.injective hvalue).symm

/-- **The middles around its value decide what is rounded to a double.** -/
theorem roundsTo_iff (hfinite : isFinite x = true) (hx : rank x = r + 1) :
    RoundsTo q x ↔ RoundsAtMost (signFactor (negative x) * q) (r + 1) ∧
      ¬ RoundsAtMost (signFactor (negative x) * q) r := by
  refine ⟨fun h => ?_, fun h => .of_roundsAtMost hfinite hx h.1 h.2⟩
  have hlt : r + 1 < infinity := hx ▸ rank_lt_infinity hfinite
  have hnear {t : ℕ} := h.nearest_rank (t := t)
  have heven {t : ℕ} := h.even_rank (t := t)
  rw [hx] at hnear heven
  have hbound : signFactor (negative x) * q < overflow :=
    lt_of_le_of_lt (le_abs_self _) (abs_signFactor_mul (negative x) q ▸ h.bounded)
  generalize signFactor (negative x) * q = p at hnear heven hbound
  constructor
  · rcases Nat.lt_or_ge (r + 2) infinity with hnext | hlast
    · have hle : p ≤ middle (r + 1) :=
        (abs_sub_le_iff_le_middle (magnitude_strictMono (Nat.lt_succ_self _))).1 (hnear hnext)
      refine (lt_or_eq_of_le hle).imp id fun htie => ⟨htie, ?_⟩
      exact heven hnext (by omega) (abs_sub_eq_of_eq_middle htie).symm
    · rw [← middle_eq_overflow (r := r + 1) (by omega)] at hbound
      exact .inl hbound
  · intro hat
    have hle : middle r ≤ p :=
      (abs_sub_le_iff_middle_le (magnitude_strictMono (Nat.lt_succ_self _))).1
        (hnear (Nat.lt_of_succ_lt hlt))
    have htie : p = middle r := le_antisymm hat.le_middle hle
    have := heven (Nat.lt_of_succ_lt hlt) (Nat.ne_of_lt (Nat.lt_succ_self r))
      (abs_sub_eq_of_eq_middle htie)
    have := hat.elim (fun hlow => absurd htie hlow.ne) fun hat => hat.2
    omega

/-! ## Rounding to zero -/

theorem exists_signFactor_mul_eq_abs (q : ℚ) : ∃ negated, signFactor negated * q = |q| := by
  rcases le_total 0 q with h | h
  · exact ⟨false, by rw [signFactor, if_neg Bool.false_ne_true, one_mul, abs_of_nonneg h]⟩
  · exact ⟨true, by rw [signFactor, if_pos rfl, neg_one_mul, abs_of_nonpos h]⟩

theorem abs_toRat (hfinite : isFinite x = true) : |toRat x| = magnitude (rank x) := by
  rw [toRat_eq hfinite, abs_signFactor_mul, abs_of_nonneg (magnitude_nonneg _)]

/-- The rank of zero is even, so the middle above it is rounded to it. -/
theorem roundsAtMost_zero_iff : RoundsAtMost q 0 ↔ q ≤ middle 0 := by
  rw [RoundsAtMost, and_iff_left (Nat.zero_mod 2), le_iff_lt_or_eq]

/-- A number of either sign is rounded to a zero up to the middle above it. -/
theorem roundsTo_iff_of_rank_eq_zero (hfinite : isFinite x = true) (hx : rank x = 0) :
    RoundsTo q x ↔ RoundsAtMost |q| 0 := by
  have hvalue : toRat x = magnitude 0 := by
    rw [toRat_eq hfinite, hx, magnitude_zero, mul_zero]
  constructor
  · intro h
    -- the double nearest to zero on the side of `q` is not nearer
    obtain ⟨negated, habs⟩ := exists_signFactor_mul_eq_abs q
    obtain ⟨y, hy, hone⟩ := exists_signFactor_mul_toRat_eq negated (r := 1) (by decide)
    have hleft : |q - toRat x| = |(|q|) - magnitude 0| := by
      rw [hvalue, magnitude_zero, sub_zero, sub_zero, abs_abs]
    have hright : |q - toRat y| = |(|q|) - magnitude 1| := by
      rw [← abs_signFactor_mul_sub negated q (toRat y), habs, hone]
    have hnear := h.nearest y hy
    rw [hleft, hright] at hnear
    rw [roundsAtMost_zero_iff]
    exact (abs_sub_le_iff_le_middle (magnitude_strictMono Nat.zero_lt_one)).1 hnear
  · intro h
    refine ⟨hfinite, h.lt_overflow (by decide), fun y hy => ?_, fun _ _ _ _ => ?_⟩
    · rw [hvalue, magnitude_zero, sub_zero]
      rcases Nat.eq_zero_or_pos (rank y) with hzero | hpos
      · rw [toRat_eq hy, hzero, magnitude_zero, mul_zero, sub_zero]
      · have hnear := (nearest_of_le_middle h.le_middle (magnitude_strictMono.monotone hpos)).1
        rw [magnitude_zero, sub_zero, abs_abs, ← abs_toRat hy] at hnear
        exact hnear.trans (abs_abs_sub_abs_le_abs_sub q (toRat y))
    · rw [toBits_mod_two, hx]

/-! ## Reading a number -/

/-- What a number that is not negative is read as: the double it is rounded to, and infinity if it
is too large for that. -/
structure ReadAs (q : ℚ) (x : Float) : Prop where
  unsigned : negative x = false
  nearest : q < overflow → RoundsTo q x
  infinite : overflow ≤ q → rank x = infinity

end Binary

/-! ## Rounding decimals -/

namespace Decimal

open Binary

variable {d e : Decimal} {r : ℕ} {negated : Bool} {x : Float}

theorem value_nonneg (d : Decimal) : 0 ≤ d.value :=
  mul_nonneg (Nat.cast_nonneg _) (zpow_nonneg (by norm_num) _)

theorem rank_le_iff (hr : r < infinity) : d.rank ≤ r ↔ RoundsAtMost d.value r := by
  rw [value_eq_div, rank]
  exact nearestRank_le_iff (Nat.pow_pos (by decide)) hr

/-- Rounding decimals keeps order. -/
theorem rank_mono (h : d.value ≤ e.value) : d.rank ≤ e.rank := by
  rw [value_eq_div, value_eq_div] at h
  exact nearestRank_mono (Nat.pow_pos (by decide)) (Nat.pow_pos (by decide)) h

/-- **A decimal with a sign is rounded to the double with that sign and its rank.** -/
theorem roundsTo_iff_rank_eq (hfinite : isFinite x = true) (hx : Binary.rank x ≠ 0) :
    RoundsTo (signFactor negated * d.value) x ↔ negated = negative x ∧ d.rank = Binary.rank x := by
  obtain ⟨r, hr⟩ := Nat.exists_eq_add_one_of_ne_zero hx
  have hlt : r + 1 < infinity := hr ▸ rank_lt_infinity hfinite
  rw [roundsTo_iff hfinite hr]
  by_cases hsign : negated = negative x
  · rw [hsign, signFactor_mul_signFactor_mul, ← rank_le_iff hlt,
      ← rank_le_iff (Nat.lt_of_succ_lt hlt), hr]
    constructor
    · exact fun h => ⟨rfl, by omega⟩
    · exact fun h => ⟨by omega, by omega⟩
  · -- numbers of the other sign are below zero
    rw [signFactor_mul_of_ne hsign]
    refine iff_of_false (fun h => h.2 (.inl ?_)) fun h => hsign h.1
    have := d.value_nonneg
    have := magnitude_nonneg r
    have := magnitude_lt_middle r
    linarith

/-- A decimal with a sign is rounded to a zero when its rank is that of zero. -/
theorem roundsTo_iff_rank_eq_zero (hfinite : isFinite x = true) (hx : Binary.rank x = 0) :
    RoundsTo (signFactor negated * d.value) x ↔ d.rank = 0 := by
  rw [roundsTo_iff_of_rank_eq_zero hfinite hx, abs_signFactor_mul, abs_of_nonneg d.value_nonneg,
    ← rank_le_iff (by decide), Nat.le_zero]

/-- The two cases together, for decimals without a sign. -/
theorem roundsTo_value_iff (hfinite : isFinite x = true) (hx : negative x = false) :
    RoundsTo d.value x ↔ d.rank = Binary.rank x := by
  have hsigned : d.value = signFactor false * d.value := by
    rw [signFactor, if_neg Bool.false_ne_true, one_mul]
  rw [hsigned]
  by_cases hzero : Binary.rank x = 0
  · rw [roundsTo_iff_rank_eq_zero hfinite hzero, hzero]
  · rw [roundsTo_iff_rank_eq hfinite hzero, hx, and_iff_right rfl]

/-- A decimal has a finite rank when it is below half a step above the largest finite double. -/
theorem rank_lt_infinity_iff : d.rank < infinity ↔ d.value < overflow := by
  have hlast : infinity - 1 < infinity := by decide
  have hodd : ¬ (infinity - 1) % 2 = 0 := by decide
  rw [Nat.lt_iff_le_pred (Nat.zero_lt_of_lt hlast), rank_le_iff hlast, RoundsAtMost,
    middle_eq_overflow (by decide), or_iff_left fun h => hodd h.2]

theorem rank_le_infinity (d : Decimal) : d.rank ≤ infinity :=
  nearestRank_le_infinity _ _

theorem rank_eq_infinity_iff : d.rank = infinity ↔ overflow ≤ d.value := by
  have := d.rank_le_infinity
  rw [← not_lt, ← rank_lt_infinity_iff]
  omega

/-- What a decimal is read as has its rank. -/
theorem rank_eq_of_readAs (h : ReadAs d.value x) : d.rank = Binary.rank x := by
  rcases lt_or_ge d.value overflow with hvalue | hvalue
  · have hround := h.nearest hvalue
    exact (roundsTo_value_iff hround.finite h.unsigned).1 hround
  · rw [h.infinite hvalue]
    exact rank_eq_infinity_iff.2 hvalue

/-- **A decimal is made the nearest double**, whatever its value is. -/
theorem toFloat_eq_iff : d.toFloat = x ↔ ReadAs d.value x := by
  have hrank : Binary.rank d.toFloat = d.rank := rank_ofRank d.rank_le_infinity
  have hsign : negative d.toFloat = false := negative_ofRank d.rank_le_infinity
  constructor
  · intro h
    subst h
    refine ⟨hsign, fun hvalue => ?_, fun hvalue => ?_⟩
    · have hfinite : isFinite d.toFloat = true := isFinite_ofRank (rank_lt_infinity_iff.2 hvalue)
      exact (roundsTo_value_iff hfinite hsign).2 hrank.symm
    · rw [hrank]
      exact rank_eq_infinity_iff.2 hvalue
  · intro h
    have heq := rank_eq_of_readAs h
    have hnumber : Binary.rank x ≤ infinity := heq ▸ d.rank_le_infinity
    rw [← ofRank_negative_rank hnumber, h.unsigned, ← heq]
    rfl

end Decimal

namespace Numeral

/-- **A numeral is read as the nearest double**, and no other text is read. -/
theorem read?_eq_some_iff {text : List Char} {x : Float} : read? text = some x ↔
    isNumeral text = true ∧ Binary.ReadAs (toDecimal text).value x := by
  unfold read?
  by_cases h : isNumeral text = true
  · rw [if_pos h, Option.some.injEq, Decimal.toFloat_eq_iff, and_iff_right h]
  · rw [if_neg h]
    exact iff_of_false (fun hnone => nomatch hnone) fun hread => h hread.1

end Numeral
end KeypadCalculator
