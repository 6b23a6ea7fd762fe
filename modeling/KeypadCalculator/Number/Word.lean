import Mathlib
import KeypadCalculator.Number.Binary

/-!
# The word of a double

A double is given by its word of 64 bits, and every word whose rank is at most that of infinity is
the word of a double: it is that of an infinity, a zero, a subnormal or a normal number, and none of
these loses anything when it is taken apart (`pack_unpack_number`). So sign and rank determine a
double that is a number (`ofRank_negative_rank`), any such pair occurs (`negative_ofRank`,
`rank_ofRank`), and negation changes the sign alone (`neg_ofRank`).
-/

namespace KeypadCalculator.Binary

open Float.Model
open Float.Model.UnpackedFloat (Sign unpackSign unpackExponent unpackMantissa packComponents
  packedInfinity packedZero)

/-! ## The fields of a word -/

theorem toNat_unpackMantissa (w : BitVec 64) :
    (@unpackMantissa Format.binary64 w).toNat = w.toNat % 2 ^ 52 := by
  simp [unpackMantissa, BitVec.extractLsb]

theorem toNat_unpackExponent (w : BitVec 64) :
    (@unpackExponent Format.binary64 w).toNat = w.toNat / 2 ^ 52 % 2 ^ 11 := by
  simp [unpackExponent, BitVec.extractLsb, Nat.shiftRight_eq_div_pow]

theorem toNat_unpackSign (w : BitVec 64) :
    (@unpackSign Format.binary64 w).toNat = w.toNat / 2 ^ 63 := by
  have := w.isLt
  simp [unpackSign, BitVec.extractLsb, Nat.shiftRight_eq_div_pow]
  omega

theorem toNat_packComponents (s : Sign) (e : BitVec 11) (m : BitVec 52) :
    (packComponents Format.binary64 s e m).toNat
      = s.toBitVec.toNat * 2 ^ 63 + e.toNat * 2 ^ 52 + m.toNat := by
  have he := e.isLt
  have hm := m.isLt
  unfold packComponents
  rw [BitVec.toNat_append, BitVec.toNat_append, ← Nat.shiftLeft_add_eq_or_of_lt he,
    ← Nat.shiftLeft_add_eq_or_of_lt hm]
  simp only [Nat.shiftLeft_eq]
  omega

theorem toBitVec_ofBitVec (b : BitVec 1) : (Sign.ofBitVec b).toBitVec = b := by
  have := b.isLt
  rcases (by omega : b.toNat = 0 ∨ b.toNat = 1) with h | h
  · obtain rfl : b = 0#1 := BitVec.eq_of_toNat_eq (by simp [h])
    rfl
  · obtain rfl : b = 1#1 := BitVec.eq_of_toNat_eq (by simp [h])
    rfl

theorem toNat_one_append (m : BitVec 52) : (1#1 ++ m).toNat = 2 ^ 52 + m.toNat := by
  rw [BitVec.toNat_append, ← Nat.shiftLeft_add_eq_or_of_lt m.isLt]
  rfl

/-- A word is made of its sign, exponent and mantissa. -/
theorem packComponents_fields (w : BitVec 64) :
    packComponents Format.binary64 (Sign.ofBitVec (@unpackSign Format.binary64 w))
      (@unpackExponent Format.binary64 w) (@unpackMantissa Format.binary64 w) = w := by
  apply BitVec.eq_of_toNat_eq
  have := w.isLt
  rw [toNat_packComponents, toBitVec_ofBitVec, toNat_unpackSign, toNat_unpackExponent,
    toNat_unpackMantissa]
  omega

/-! ## The kinds of words -/

section kinds

variable {w : BitVec 64}

theorem unpack_infinity (hE : @unpackExponent Format.binary64 w = -1#11)
    (hM : @unpackMantissa Format.binary64 w = 0#52) :
    UnpackedFloat.unpack Format.binary64 w
      = .infinity (Sign.ofBitVec (@unpackSign Format.binary64 w)) := by
  unfold UnpackedFloat.unpack
  dsimp only
  rw [if_pos hE, if_pos hM]

theorem unpack_zero (hE : @unpackExponent Format.binary64 w = 0#11)
    (hM : @unpackMantissa Format.binary64 w = 0#52) :
    UnpackedFloat.unpack Format.binary64 w
      = .zero (Sign.ofBitVec (@unpackSign Format.binary64 w)) := by
  unfold UnpackedFloat.unpack
  dsimp only
  rw [if_neg (by rw [hE]; decide), if_pos hE, dif_pos hM]

/-- The numbers next to zero have the mantissa as it is. -/
theorem unpack_subnormal (hE : @unpackExponent Format.binary64 w = 0#11)
    (hM : @unpackMantissa Format.binary64 w ≠ 0#52) :
    ∃ hpos, UnpackedFloat.unpack Format.binary64 w
      = .finite (Sign.ofBitVec (@unpackSign Format.binary64 w))
          (@unpackMantissa Format.binary64 w).toNat (-1074) hpos := by
  refine ⟨Nat.pos_of_ne_zero fun h => hM (BitVec.eq_of_toNat_eq h), ?_⟩
  unfold UnpackedFloat.unpack
  dsimp only
  rw [if_neg (by rw [hE]; decide), if_pos hE, dif_neg hM, UnpackedFloat.finite.injEq, hE]
  exact ⟨rfl, rfl, rfl⟩

/-- The other numbers have a mantissa that begins with a one, and the word leaves it out. -/
theorem unpack_normal (hones : @unpackExponent Format.binary64 w ≠ -1#11)
    (hzero : @unpackExponent Format.binary64 w ≠ 0#11) :
    ∃ hpos, UnpackedFloat.unpack Format.binary64 w
      = .finite (Sign.ofBitVec (@unpackSign Format.binary64 w))
          (1#1 ++ @unpackMantissa Format.binary64 w).toNat
          ((@unpackExponent Format.binary64 w).toNat - 1075) hpos := by
  refine ⟨?_, ?_⟩
  · rw [toNat_one_append]
    exact Nat.add_pos_left (Nat.two_pow_pos 52) _
  · unfold UnpackedFloat.unpack
    dsimp only
    rw [if_neg hones, if_neg hzero]
    rfl

theorem pack_unpack_infinity (hE : @unpackExponent Format.binary64 w = -1#11)
    (hM : @unpackMantissa Format.binary64 w = 0#52) :
    UnpackedFloat.pack Format.binary64 (UnpackedFloat.unpack Format.binary64 w) = w := by
  have hfields := packComponents_fields w
  rw [hE, hM] at hfields
  rw [unpack_infinity hE hM]
  exact hfields

theorem pack_unpack_zero (hE : @unpackExponent Format.binary64 w = 0#11)
    (hM : @unpackMantissa Format.binary64 w = 0#52) :
    UnpackedFloat.pack Format.binary64 (UnpackedFloat.unpack Format.binary64 w) = w := by
  have hfields := packComponents_fields w
  rw [hE, hM] at hfields
  rw [unpack_zero hE hM]
  exact hfields

/-- A number next to zero is packed with the exponent zero. -/
theorem pack_subnormal (s : Sign) (m : BitVec 52) (hpos : 0 < m.toNat) :
    UnpackedFloat.pack Format.binary64 (.finite s m.toNat (-1074) hpos)
      = packComponents Format.binary64 s 0#11 m := by
  have hbits : m.toNat.log2 < 52 := (Nat.log2_lt (Nat.ne_of_gt hpos)).2 m.isLt
  have hlog : m.toNat.log2 + 1 ≠ Format.binary64.mantissaBits := by
    have : Format.binary64.mantissaBits = 53 := rfl
    omega
  unfold UnpackedFloat.pack
  dsimp only
  rw [if_neg (by decide), if_neg hlog, BitVec.ofNat_toNat, BitVec.setWidth_eq]

theorem pack_unpack_subnormal (hE : @unpackExponent Format.binary64 w = 0#11)
    (hM : @unpackMantissa Format.binary64 w ≠ 0#52) :
    UnpackedFloat.pack Format.binary64 (UnpackedFloat.unpack Format.binary64 w) = w := by
  have hfields := packComponents_fields w
  rw [hE] at hfields
  obtain ⟨hpos, hunpack⟩ := unpack_subnormal hE hM
  rw [hunpack, pack_subnormal]
  exact hfields

/-- A mantissa that begins with a one is packed without it. -/
theorem pack_normal (s : Sign) (e : BitVec 11) (m : BitVec 52) (hpos : 0 < (1#1 ++ m).toNat)
    (hones : e ≠ -1#11) :
    UnpackedFloat.pack Format.binary64 (.finite s (1#1 ++ m).toNat (e.toNat - 1075) hpos)
      = packComponents Format.binary64 s e m := by
  have hbiased : ((e.toNat : Int) - 1075 + (Format.binary64.exponentBias : Int)
      + (Format.binary64.mantissaBitsWithoutImplicit : Int)).toNat = e.toNat := by
    have : (Format.binary64.exponentBias : Int) = 1023 := rfl
    have : (Format.binary64.mantissaBitsWithoutImplicit : Int) = 52 := rfl
    omega
  have hfits : ¬ 2 ^ 11 ≤ e.toNat + 1 := by
    have : e.toNat ≠ 2047 := fun h => hones (BitVec.eq_of_toNat_eq h)
    omega
  have hlog : (1#1 ++ m).toNat.log2 = 52 := by
    rw [toNat_one_append, Nat.log2_eq_iff (by omega)]
    omega
  have hmantissa : BitVec.ofNat 52 (1#1 ++ m).toNat = m := by
    apply BitVec.eq_of_toNat_eq
    rw [BitVec.toNat_ofNat, toNat_one_append]
    omega
  unfold UnpackedFloat.pack
  dsimp only
  rw [hbiased, hlog, if_neg hfits, if_pos (by decide), hmantissa, BitVec.ofNat_toNat,
    BitVec.setWidth_eq]

theorem pack_unpack_normal (hones : @unpackExponent Format.binary64 w ≠ -1#11)
    (hzero : @unpackExponent Format.binary64 w ≠ 0#11) :
    UnpackedFloat.pack Format.binary64 (UnpackedFloat.unpack Format.binary64 w) = w := by
  obtain ⟨hpos, hunpack⟩ := unpack_normal hones hzero
  rw [hunpack, pack_normal _ _ _ _ hones]
  exact packComponents_fields w

/-- With the exponent all ones, a mantissa other than zero would put the rank beyond infinity. -/
theorem unpackMantissa_eq_zero (h : w.toNat % 2 ^ 63 ≤ infinity)
    (hE : @unpackExponent Format.binary64 w = -1#11) :
    @unpackMantissa Format.binary64 w = 0#52 := by
  have hexponent := toNat_unpackExponent w
  rw [hE] at hexponent
  have hones : (-1#11).toNat = 2047 := rfl
  unfold infinity at h
  apply BitVec.eq_of_toNat_eq
  rw [toNat_unpackMantissa, BitVec.toNat_ofNat, Nat.zero_mod]
  omega

end kinds

/-! ## Words of numbers -/

/-- **Nothing is lost when the word of a number is taken apart.** -/
theorem pack_unpack_number (w : BitVec 64) (h : w.toNat % 2 ^ 63 ≤ infinity) :
    UnpackedFloat.pack Format.binary64 (UnpackedFloat.unpack Format.binary64 w) = w := by
  by_cases hones : @unpackExponent Format.binary64 w = -1#11
  · exact pack_unpack_infinity hones (unpackMantissa_eq_zero h hones)
  by_cases hzero : @unpackExponent Format.binary64 w = 0#11
  · by_cases hM : @unpackMantissa Format.binary64 w = 0#52
    · exact pack_unpack_zero hzero hM
    · exact pack_unpack_subnormal hzero hM
  · exact pack_unpack_normal hones hzero

/-- The word of a number is kept by the double made of it. -/
theorem toBits_ofBits (w : UInt64) (h : w.toNat % 2 ^ 63 ≤ infinity) :
    (Float.ofBits w).toBits = w := by
  show UInt64.ofBitVec (UnpackedFloat.pack Format.binary64 _) = w
  rw [pack_unpack_number w.toBitVec h]

/-- Different doubles have different words. -/
theorem eq_of_toBits_eq {x y : Float} (h : x.toBits = y.toBits) : x = y := by
  obtain ⟨⟨a, ha⟩⟩ := x
  obtain ⟨⟨b, hb⟩⟩ := y
  simp only [Float.toBits] at h
  subst h
  rfl

/-! ## The two halves of a double -/

theorem toNat_toBits_ofRank {s : Bool} {r : Nat} (h : r ≤ infinity) :
    (ofRank s r).toBits.toNat = (if s then 2 ^ 63 else 0) + r := by
  have hr : r < 2 ^ 63 := Nat.lt_of_le_of_lt h (by decide)
  have hw : (UInt64.ofNat (if s then 2 ^ 63 + r else r)).toNat = (if s then 2 ^ 63 else 0) + r := by
    rw [UInt64.toNat_ofNat']
    split <;> omega
  rw [ofRank, toBits_ofBits, hw]
  rw [hw]
  refine Nat.le_trans (Nat.le_of_eq ?_) h
  split <;> omega

@[simp] theorem rank_ofRank {s : Bool} {r : Nat} (h : r ≤ infinity) : rank (ofRank s r) = r := by
  have hr : r < 2 ^ 63 := Nat.lt_of_le_of_lt h (by decide)
  rw [rank, toNat_toBits_ofRank h]
  split <;> omega

@[simp] theorem negative_ofRank {s : Bool} {r : Nat} (h : r ≤ infinity) :
    negative (ofRank s r) = s := by
  have hr : r < 2 ^ 63 := Nat.lt_of_le_of_lt h (by decide)
  rw [negative, toNat_toBits_ofRank h]
  cases s with
  | false => exact decide_eq_false (by rw [if_neg Bool.false_ne_true]; omega)
  | true => exact decide_eq_true (by rw [if_pos rfl]; omega)

/-- A number is made of its sign and rank. -/
theorem ofRank_negative_rank {x : Float} (h : rank x ≤ infinity) :
    ofRank (negative x) (rank x) = x := by
  apply eq_of_toBits_eq
  apply UInt64.toNat_inj.1
  rw [toNat_toBits_ofRank h]
  have := x.toBits.toNat_lt
  unfold rank negative
  by_cases hs : 2 ^ 63 ≤ x.toBits.toNat
  · rw [decide_eq_true hs, if_pos rfl]
    omega
  · rw [decide_eq_false hs, if_neg Bool.false_ne_true]
    omega

/-! ## Finite doubles -/

theorem rank_lt_infinity {x : Float} (h : isFinite x = true) : rank x < infinity :=
  of_decide_eq_true h

theorem rank_le_infinity {x : Float} (h : isFinite x = true) : rank x ≤ infinity :=
  Nat.le_of_lt (rank_lt_infinity h)

theorem isFinite_ofRank {s : Bool} {r : Nat} (h : r < infinity) : isFinite (ofRank s r) = true := by
  rw [isFinite, rank_ofRank (Nat.le_of_lt h)]
  exact decide_eq_true h

/-! ## Negation -/

/-- The word with the other sign is taken apart into the negated number. -/
theorem unpack_of_sign_changed {w w' : BitVec 64}
    (hr : w'.toNat % 2 ^ 63 = w.toNat % 2 ^ 63) (hs : w'.toNat / 2 ^ 63 = 1 - w.toNat / 2 ^ 63) :
    UnpackedFloat.unpack Format.binary64 w' = (UnpackedFloat.unpack Format.binary64 w).neg := by
  have hE : @unpackExponent Format.binary64 w' = @unpackExponent Format.binary64 w := by
    apply BitVec.eq_of_toNat_eq
    rw [toNat_unpackExponent, toNat_unpackExponent]
    omega
  have hM : @unpackMantissa Format.binary64 w' = @unpackMantissa Format.binary64 w := by
    apply BitVec.eq_of_toNat_eq
    rw [toNat_unpackMantissa, toNat_unpackMantissa]
    omega
  have hS : Sign.ofBitVec (@unpackSign Format.binary64 w')
      = -Sign.ofBitVec (@unpackSign Format.binary64 w) := by
    have h1 := toNat_unpackSign w
    have h2 := toNat_unpackSign w'
    have := w.isLt
    rcases (by omega : w.toNat / 2 ^ 63 = 0 ∨ w.toNat / 2 ^ 63 = 1) with h | h
    · rw [(BitVec.eq_of_toNat_eq (by rw [h1, h]; rfl) : @unpackSign Format.binary64 w = 0#1),
        (BitVec.eq_of_toNat_eq (by rw [h2, hs, h]; rfl) : @unpackSign Format.binary64 w' = 1#1)]
      rfl
    · rw [(BitVec.eq_of_toNat_eq (by rw [h1, h]; rfl) : @unpackSign Format.binary64 w = 1#1),
        (BitVec.eq_of_toNat_eq (by rw [h2, hs, h]; rfl) : @unpackSign Format.binary64 w' = 0#1)]
      rfl
  simp only [UnpackedFloat.unpack, hE, hM, hS]
  split
  · split <;> rfl
  · split
    · split <;> rfl
    · rfl

/-- Negation changes the sign and keeps the rank. -/
theorem neg_ofRank {s : Bool} {r : Nat} (h : r ≤ infinity) : -ofRank s r = ofRank (!s) r := by
  have hx := @toNat_toBits_ofRank s r h
  have hy := @toNat_toBits_ofRank (!s) r h
  unfold infinity at h
  apply eq_of_toBits_eq
  apply UInt64.toBitVec_inj.1
  show UnpackedFloat.pack Format.binary64
    (UnpackedFloat.unpack Format.binary64 (ofRank s r).toBits.toBitVec).neg = _
  rw [← @unpack_of_sign_changed _ (ofRank (!s) r).toBits.toBitVec, pack_unpack_number]
  · show (ofRank (!s) r).toBits.toNat % 2 ^ 63 ≤ infinity
    rw [hy]
    unfold infinity
    cases s <;> simp <;> omega
  · show (ofRank (!s) r).toBits.toNat % 2 ^ 63 = (ofRank s r).toBits.toNat % 2 ^ 63
    rw [hx, hy]
    cases s <;> simp
  · show (ofRank (!s) r).toBits.toNat / 2 ^ 63 = 1 - (ofRank s r).toBits.toNat / 2 ^ 63
    rw [hx, hy]
    cases s <;> simp <;> omega

end KeypadCalculator.Binary
