import KeypadCalculator.Number.Word
import KeypadCalculator.Proofs.Number.ResultText

/-!
# Comparing magnitudes

Doubles are compared like their ranks (`ofRank_lt_ofRank_iff`, `ofRank_le_ofRank_iff`), and leaving
out the sign leaves the rank (`abs_eq_ofRank`). They are equal as numbers if nothing but the sign of a
zero tells them apart (`beq_iff_unsignZero_eq`). The numbers that a result shows without an
exponent are zero and those from `1e-6` up to below `1e21` in magnitude (`isPositional_iff`).
-/

namespace KeypadCalculator

namespace Binary

open Float.Model
open Float.Model.UnpackedFloat (Sign unpackSign unpackExponent unpackMantissa)

-- The powers below are those of the core library, as in the definitions.
attribute [local instance (high)] instPowNat instNatPowNat

variable {r s : ℕ} {x y : Float}

/-! ## The parts of a rank -/

/-- How often the steps between ranks have doubled. -/
def doublings (r : ℕ) : ℕ :=
  r / 2 ^ (52 : ℕ) - 1

/-- How many of its own steps the value of a rank is. -/
def significand (r : ℕ) : ℕ :=
  r - doublings r * 2 ^ (52 : ℕ)

/-- The value of a rank is its significand, doubled as often as the steps have. -/
theorem units_eq (r : ℕ) : units r = significand r * 2 ^ doublings r := rfl

theorem doublings_mul_le (r : ℕ) : doublings r * 2 ^ (52 : ℕ) ≤ r := by
  unfold doublings
  omega

theorem significand_lt (r : ℕ) : significand r < 2 ^ (53 : ℕ) := by
  unfold significand doublings
  omega

theorem significand_pos (h : 0 < r) : 0 < significand r := by
  unfold significand doublings
  omega

/-- Ranks are in the order of their doublings, and where these are equal of their significands. -/
theorem compare_parts (r s : ℕ) :
    (compare ((doublings r : ℤ) - 1074) ((doublings s : ℤ) - 1074)).then
      (compare (significand r) (significand s)) = compare r s := by
  rcases Nat.lt_trichotomy (doublings r) (doublings s) with hd | hd | hd
  · have hlt : r < s := by
      unfold doublings at hd
      omega
    rw [Int.compare_eq_lt.2 (by omega), Nat.compare_eq_lt.2 hlt]
    rfl
  · have hsame : compare (significand r) (significand s) = compare r s := by
      have hr := doublings_mul_le r
      have hs := doublings_mul_le s
      unfold significand
      rw [hd] at hr ⊢
      rcases Nat.lt_trichotomy r s with h | h | h
      · rw [Nat.compare_eq_lt.2 h, Nat.compare_eq_lt.2 (by omega)]
      · rw [h, Nat.compare_eq_eq.2 (Eq.refl s), Nat.compare_eq_eq.2 (Eq.refl _)]
      · rw [Nat.compare_eq_gt.2 h, Nat.compare_eq_gt.2 (by omega)]
    rw [hsame, hd, Int.compare_eq_eq.2 (Eq.refl ((doublings s : ℤ) - 1074))]
    rfl
  · have hlt : s < r := by
      unfold doublings at hd
      omega
    rw [Int.compare_eq_gt.2 (by omega), Nat.compare_eq_gt.2 hlt]
    rfl

/-! ## Unpacked ranks -/

/-- The sign of a number that is negative or not. -/
def signOf (negated : Bool) : Sign :=
  if negated then .negative else .positive

theorem ofBitVec_unpackSign {w : BitVec 64} {negated : Bool}
    (hw : w.toNat = (if negated then 2 ^ (63 : ℕ) else 0) + r) (hr : r < 2 ^ (63 : ℕ)) :
    Sign.ofBitVec (@unpackSign Format.binary64 w) = signOf negated := by
  have hsign := toNat_unpackSign w
  cases negated with
  | false =>
    rw [if_neg Bool.false_ne_true] at hw
    have hzero : @unpackSign Format.binary64 w = 0#1 :=
      BitVec.eq_of_toNat_eq (by rw [hsign]; simp; omega)
    rw [hzero]
    rfl
  | true =>
    rw [if_pos rfl] at hw
    have hone : @unpackSign Format.binary64 w = 1#1 :=
      BitVec.eq_of_toNat_eq (by rw [hsign]; simp; omega)
    rw [hone]
    rfl

theorem unpackExponent_of_word {w : BitVec 64} {negated : Bool}
    (hw : w.toNat = (if negated then 2 ^ (63 : ℕ) else 0) + r) (hr : r < 2 ^ (63 : ℕ)) :
    (@unpackExponent Format.binary64 w).toNat = r / 2 ^ (52 : ℕ) := by
  rw [toNat_unpackExponent, hw]
  split <;> omega

theorem unpackMantissa_of_word {w : BitVec 64} {negated : Bool}
    (hw : w.toNat = (if negated then 2 ^ (63 : ℕ) else 0) + r) :
    (@unpackMantissa Format.binary64 w).toNat = r % 2 ^ (52 : ℕ) := by
  rw [toNat_unpackMantissa, hw]
  split <;> omega

/-- The word of a number other than zero is unpacked into sign, significand and doublings. -/
theorem exists_unpack_eq_finite {w : BitVec 64} {negated : Bool}
    (hw : w.toNat = (if negated then 2 ^ (63 : ℕ) else 0) + r) (hpos : 0 < r) (h : r < infinity) :
    ∃ hm, UnpackedFloat.unpack Format.binary64 w
      = .finite (signOf negated) (significand r) ((doublings r : ℤ) - 1074) hm := by
  have hr : r < 2 ^ (63 : ℕ) := Nat.lt_trans h (by decide)
  have hexponent := unpackExponent_of_word hw hr
  have hmantissa := unpackMantissa_of_word hw
  have hones : @unpackExponent Format.binary64 w ≠ -1#11 := by
    intro hinfinite
    have htop : (-1#11).toNat = 2047 := rfl
    rw [hinfinite, htop] at hexponent
    unfold infinity at h
    omega
  refine ⟨significand_pos hpos, ?_⟩
  rw [← ofBitVec_unpackSign hw hr]
  by_cases hfirst : @unpackExponent Format.binary64 w = 0#11
  · -- the first block, without its zero
    rw [hfirst, BitVec.toNat_ofNat, Nat.zero_mod] at hexponent
    have hM : @unpackMantissa Format.binary64 w ≠ 0#52 := by
      intro hzero
      rw [hzero, BitVec.toNat_ofNat, Nat.zero_mod] at hmantissa
      omega
    obtain ⟨hm, hunpack⟩ := unpack_subnormal hfirst hM
    rw [hunpack, UnpackedFloat.finite.injEq, hmantissa]
    unfold significand doublings
    exact ⟨rfl, by omega, by omega⟩
  · have hne : (@unpackExponent Format.binary64 w).toNat ≠ 0 :=
      fun hzero => hfirst (BitVec.eq_of_toNat_eq hzero)
    rw [hexponent] at hne
    obtain ⟨hm, hunpack⟩ := unpack_normal hones hfirst
    rw [hunpack, UnpackedFloat.finite.injEq, toNat_one_append, hmantissa, hexponent]
    unfold significand doublings
    exact ⟨rfl, by omega, by omega⟩

/-! ## The order of doubles -/

theorem exists_unpack_ofRank (negated : Bool) (hpos : 0 < r) (h : r < infinity) :
    ∃ hm, (ofRank negated r).toModel.unpack
      = .finite (signOf negated) (significand r) ((doublings r : ℤ) - 1074) hm :=
  exists_unpack_eq_finite (toNat_toBits_ofRank (Nat.le_of_lt h)) hpos h

/-- Numbers without a sign are compared like their ranks. -/
theorem compare_ofRank (hr : 0 < r) (hr' : r < infinity) (hs : 0 < s) (hs' : s < infinity) :
    (ofRank false r).toModel.unpack.compare (ofRank false s).toModel.unpack
      = some (compare r s) := by
  obtain ⟨hm, hleft⟩ := exists_unpack_ofRank false hr hr'
  obtain ⟨hm', hright⟩ := exists_unpack_ofRank false hs hs'
  rw [hleft, hright, ← compare_parts r s]
  rfl

theorem ofRank_lt_ofRank_iff (hr : 0 < r) (hr' : r < infinity) (hs : 0 < s) (hs' : s < infinity) :
    ofRank false r < ofRank false s ↔ r < s := by
  show Float.lt _ _ = true ↔ r < s
  rw [Float.lt, decide_eq_true_iff]
  show UnpackedFloat.lt (ofRank false r).toModel.unpack (ofRank false s).toModel.unpack = true ↔ _
  rw [UnpackedFloat.lt, compare_ofRank hr hr' hs hs', beq_iff_eq, Option.some.injEq,
    Nat.compare_eq_lt]

theorem ofRank_le_ofRank_iff (hr : 0 < r) (hr' : r < infinity) (hs : 0 < s) (hs' : s < infinity) :
    ofRank false r ≤ ofRank false s ↔ r ≤ s := by
  show Float.le _ _ = true ↔ r ≤ s
  rw [Float.le, decide_eq_true_iff]
  show UnpackedFloat.le (ofRank false r).toModel.unpack (ofRank false s).toModel.unpack = true ↔ _
  rw [UnpackedFloat.le, compare_ofRank hr hr' hs hs', Option.any_some, Nat.isLE_compare]

/-- The magnitude of a number has its rank and no sign. -/
theorem abs_eq_ofRank (hfinite : isFinite x = true) (hx : rank x ≠ 0) :
    x.abs = ofRank false (rank x) := by
  have hlt : rank x < infinity := rank_lt_infinity hfinite
  have hpos : 0 < rank x := Nat.pos_of_ne_zero hx
  obtain ⟨hm, hunpack⟩ := exists_unpack_ofRank (negative x) hpos hlt
  obtain ⟨hm', hunpack'⟩ := exists_unpack_ofRank false hpos hlt
  rw [ofRank_negative_rank (Nat.le_of_lt hlt)] at hunpack
  have habs : x.toModel.unpack.abs = (ofRank false (rank x)).toModel.unpack := by
    rw [hunpack, hunpack']
    rfl
  have hword : (ofRank false (rank x)).toBits.toNat = rank x := by
    rw [toNat_toBits_ofRank (Nat.le_of_lt hlt), if_neg Bool.false_ne_true, Nat.zero_add]
  apply eq_of_toBits_eq
  apply UInt64.toBitVec_inj.1
  show UnpackedFloat.pack Format.binary64 x.toModel.unpack.abs = _
  rw [habs]
  apply pack_unpack_number
  show (ofRank false (rank x)).toBits.toNat % 2 ^ (63 : ℕ) ≤ infinity
  rw [hword]
  exact Nat.le_trans (Nat.mod_le _ _) (Nat.le_of_lt hlt)

/-- A finite double is unpacked into a zero, or into sign, significand and doublings. -/
theorem unpack_cases (hfinite : isFinite x = true) :
    (rank x = 0 ∧ ∃ s, x.toModel.unpack = .zero s) ∨
      (rank x ≠ 0 ∧ ∃ hm, x.toModel.unpack
        = .finite (signOf (negative x)) (significand (rank x)) ((doublings (rank x) : ℤ) - 1074) hm) := by
  have hlt : rank x < infinity := rank_lt_infinity hfinite
  by_cases hx : rank x = 0
  · exact .inl ⟨hx, exists_unpack_eq_zero hx⟩
  · have hunpack := exists_unpack_ofRank (negative x) (Nat.pos_of_ne_zero hx) hlt
    rw [ofRank_negative_rank (Nat.le_of_lt hlt)] at hunpack
    exact .inr ⟨hx, hunpack⟩

/-- A number equals zero when it is one of the two zeros. -/
theorem beq_zero_iff (hfinite : isFinite x = true) : (x == 0) = true ↔ rank x = 0 := by
  have hzero : (0 : Float).toModel.unpack = .zero .positive := rfl
  show (x.toModel.unpack.compare (0 : Float).toModel.unpack == some .eq) = true ↔ _
  rw [hzero]
  rcases unpack_cases hfinite with ⟨hx, s, hs⟩ | ⟨hx, hm, hs⟩
  · rw [hs]
    exact iff_of_true rfl hx
  · rw [hs]
    refine iff_of_false (fun hequal => ?_) hx
    cases hsign : negative x <;> rw [hsign] at hequal <;> cases hequal

theorem beq_zero_eq_false_iff (hfinite : isFinite x = true) : (x == 0) = false ↔ rank x ≠ 0 := by
  rw [← Bool.not_eq_true, beq_zero_iff hfinite]

/-- A number other than zero is below zero when its sign is set. -/
theorem lt_zero_iff_negative (hfinite : isFinite x = true) (hx : rank x ≠ 0) :
    x < 0 ↔ negative x = true := by
  obtain ⟨-, hm, hunpack⟩ := (unpack_cases hfinite).resolve_left fun h => hx h.1
  have hzero : (0 : Float).toModel.unpack = .zero .positive := rfl
  show Float.lt _ _ = true ↔ _
  rw [Float.lt, decide_eq_true_iff]
  show UnpackedFloat.lt x.toModel.unpack (0 : Float).toModel.unpack = true ↔ _
  rw [hunpack, hzero]
  cases negative x with
  | false => exact iff_of_false (fun h => nomatch h) (fun h => nomatch h)
  | true => exact iff_of_true rfl rfl

theorem compare_finite_eq_iff {first second : Bool} {hm : 0 < significand r}
    {hm' : 0 < significand s} :
    (UnpackedFloat.finite (signOf first) (significand r) ((doublings r : ℤ) - 1074) hm).compare
      (.finite (signOf second) (significand s) ((doublings s : ℤ) - 1074) hm') = some .eq ↔
        first = second ∧ r = s := by
  have hparts := compare_parts r s
  cases first with
  | false =>
    cases second with
    | false =>
      show some (_ : Ordering) = _ ↔ _
      rw [hparts, Option.some.injEq, Nat.compare_eq_eq]
      exact (and_iff_right rfl).symm
    | true => exact iff_of_false (fun h => nomatch h) (fun h => nomatch h.1)
  | true =>
    cases second with
    | false => exact iff_of_false (fun h => nomatch h) (fun h => nomatch h.1)
    | true =>
      show some (_ : Ordering).swap = _ ↔ _
      rw [hparts, Option.some.injEq, Ordering.swap_eq_eq, Nat.compare_eq_eq]
      exact (and_iff_right rfl).symm

theorem eq_iff_negative_rank (hx : rank x ≤ infinity) (hy : rank y ≤ infinity) :
    x = y ↔ negative x = negative y ∧ rank x = rank y := by
  refine ⟨fun h => h ▸ ⟨rfl, rfl⟩, fun h => ?_⟩
  rw [← ofRank_negative_rank hx, ← ofRank_negative_rank hy, h.1, h.2]

/-- Finite doubles are equal as numbers when they are the same but for the sign of a zero. -/
theorem beq_iff_unsignZero_eq (hx : isFinite x = true) (hy : isFinite y = true) :
    (x == y) = true ↔ unsignZero x = unsignZero y := by
  have hrank (h : unsignZero x = unsignZero y) : rank x = rank y := by
    rw [← rank_unsignZero x, h, rank_unsignZero]
  show (x.toModel.unpack.compare y.toModel.unpack == some .eq) = true ↔ _
  rw [beq_iff_eq]
  rcases unpack_cases hx with ⟨hx0, s, hs⟩ | ⟨hx0, hm, hs⟩
  · rcases unpack_cases hy with ⟨hy0, t, ht⟩ | ⟨hy0, hm', ht⟩
    · rw [hs, ht, unsignZero_of_rank_eq_zero hx0, unsignZero_of_rank_eq_zero hy0]
      exact iff_of_true rfl rfl
    · rw [hs, ht]
      refine iff_of_false (fun h => ?_) fun h => hy0 (hrank h ▸ hx0)
      cases hsign : negative y <;> rw [hsign] at h <;> cases h
  · rcases unpack_cases hy with ⟨hy0, t, ht⟩ | ⟨hy0, hm', ht⟩
    · rw [hs, ht]
      refine iff_of_false (fun h => ?_) fun h => hx0 (hrank h ▸ hy0)
      cases hsign : negative x <;> rw [hsign] at h <;> cases h
    · rw [hs, ht, compare_finite_eq_iff, unsignZero_of_rank_ne_zero hx0,
        unsignZero_of_rank_ne_zero hy0]
      exact (eq_iff_negative_rank (rank_le_infinity hx) (rank_le_infinity hy)).symm

end Binary

namespace NumberFormat

open Binary

variable {x : Float}

/-- **The results without an exponent** are zero and the numbers from `1e-6` up to below `1e21` in
magnitude. -/
theorem isPositional_iff (hfinite : isFinite x = true) :
    result.IsPositional x ↔ (x == 0) = true ∨ (1e-6 ≤ x.abs ∧ x.abs < 1e21) := by
  have hfrom : (1e-6 : Float) = ofRank false result.positionalFrom.rank :=
    eq_of_toBits_eq (by decide +kernel)
  have hbelow : (1e21 : Float) = ofRank false result.positionalBelow.rank :=
    eq_of_toBits_eq (by decide +kernel)
  rw [IsPositional, beq_zero_iff hfinite]
  by_cases hx : rank x = 0
  · simp only [hx, true_or]
  · have hpos : 0 < rank x := Nat.pos_of_ne_zero hx
    have hlt : rank x < infinity := rank_lt_infinity hfinite
    rw [abs_eq_ofRank hfinite hx, hfrom, hbelow,
      ofRank_le_ofRank_iff (by decide +kernel) (by decide +kernel) hpos hlt,
      ofRank_lt_ofRank_iff hpos hlt (by decide +kernel) (by decide +kernel)]

end NumberFormat
end KeypadCalculator
