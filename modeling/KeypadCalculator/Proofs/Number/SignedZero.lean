import KeypadCalculator.Number.Format
import KeypadCalculator.Number.Word
import KeypadCalculator.Operator
import KeypadCalculator.Proofs.Number.Rounding

/-!
# The two zeros

There are two zeros, `0.0` and `-0.0`, and a result shows them alike. Which of them an operator is
given on its left changes no more than the sign of a zero that comes out
(`unsignZero_apply_unsignZero`), so it cannot be seen in the results that follow.
-/

namespace KeypadCalculator

namespace Binary

open Float.Model
open Float.Model.UnpackedFloat (Sign)

-- The powers below are those of the core library, as in the definitions.
attribute [local instance (high)] instPowNat instNatPowNat

variable {x : Float}

/-- The number itself, but the unsigned zero for both zeros. -/
def unsignZero (x : Float) : Float :=
  if rank x = 0 then ofRank false 0 else x

theorem unsignZero_of_rank_eq_zero (h : rank x = 0) : unsignZero x = ofRank false 0 :=
  if_pos h

theorem unsignZero_of_rank_ne_zero (h : rank x ≠ 0) : unsignZero x = x :=
  if_neg h

@[simp] theorem rank_unsignZero (x : Float) : rank (unsignZero x) = rank x := by
  by_cases h : rank x = 0
  · rw [unsignZero_of_rank_eq_zero h, rank_ofRank (Nat.zero_le _), h]
  · rw [unsignZero_of_rank_ne_zero h]

@[simp] theorem isFinite_unsignZero (x : Float) : isFinite (unsignZero x) = isFinite x := by
  rw [isFinite, rank_unsignZero, isFinite]

/-! ## Zeros in the operators -/

/-- The sign of a zero is all that may tell `u` and `w` apart. -/
def Alike (u w : UnpackedFloat) : Prop :=
  u = w ∨ ∃ s t, u = .zero s ∧ w = .zero t

/-- The double that packs an unpacked one. -/
def packed (u : UnpackedFloat) : Float :=
  ⟨pack u⟩

theorem rank_packed_zero (s : Sign) : rank (packed (.zero s)) = 0 := by
  cases s <;> rfl

theorem Alike.unsignZero_eq {u w : UnpackedFloat} (h : Alike u w) :
    unsignZero (packed u) = unsignZero (packed w) := by
  rcases h with rfl | h
  · rfl
  · obtain ⟨s, t, rfl, rfl⟩ := h
    rw [unsignZero_of_rank_eq_zero (rank_packed_zero s),
      unsignZero_of_rank_eq_zero (rank_packed_zero t)]

theorem exists_unpack_eq_zero (h : rank x = 0) : ∃ s, x.toModel.unpack = .zero s := by
  rw [← ofRank_negative_rank (x := x) (by rw [h]; exact Nat.zero_le _), h]
  cases negative x with
  | false => exact ⟨.positive, rfl⟩
  | true => exact ⟨.negative, rfl⟩

theorem alike_add (s t : Sign) (u : UnpackedFloat) :
    Alike (UnpackedFloat.add Format.binary64 (.zero s) u)
      (UnpackedFloat.add Format.binary64 (.zero t) u) := by
  cases u with
  | zero s' =>
    -- zeros make a zero
    right
    simp only [UnpackedFloat.add]
    split <;> split <;> exact ⟨_, _, rfl, rfl⟩
  | _ => exact .inl rfl

theorem alike_sub (s t : Sign) (u : UnpackedFloat) :
    Alike (UnpackedFloat.sub Format.binary64 (.zero s) u)
      (UnpackedFloat.sub Format.binary64 (.zero t) u) := by
  cases u with
  | zero s' =>
    right
    simp only [UnpackedFloat.sub]
    split <;> split <;> exact ⟨_, _, rfl, rfl⟩
  | _ => exact .inl rfl

theorem alike_mul (s t : Sign) (u : UnpackedFloat) :
    Alike (UnpackedFloat.mul Format.binary64 (.zero s) u)
      (UnpackedFloat.mul Format.binary64 (.zero t) u) := by
  cases u with
  | notANumber | infinity => exact .inl rfl
  | zero | finite => exact .inr ⟨_, _, rfl, rfl⟩

theorem alike_div (s t : Sign) (u : UnpackedFloat) :
    Alike (UnpackedFloat.div Format.binary64 (.zero s) u)
      (UnpackedFloat.div Format.binary64 (.zero t) u) := by
  cases u with
  | notANumber | zero => exact .inl rfl
  | infinity | finite => exact .inr ⟨_, _, rfl, rfl⟩

/-- Zero leaves no remainder but zero. -/
theorem unsignZero_remainder_unsignZero (hx : rank x = 0) (y : Float) :
    unsignZero (remainder (unsignZero x) y) = unsignZero (remainder x y) := by
  have hunits : units 0 = 0 := by decide
  have hone : 0 < 2 ^ (1074 : ℕ) := Nat.two_pow_pos 1074
  unfold remainder
  generalize 2 ^ (1074 : ℕ) = one at hone
  rw [isFinite_unsignZero, rank_unsignZero, hx, hunits, Nat.zero_mod, nearestRank_zero hone]
  split
  · rfl
  · rw [unsignZero_of_rank_eq_zero (rank_ofRank (Nat.zero_le _)),
      unsignZero_of_rank_eq_zero (rank_ofRank (Nat.zero_le _))]

end Binary

open Binary

/-- **The sign of a zero on the left of an operator only reaches a zero.** -/
theorem Operator.unsignZero_apply_unsignZero (op : Operator) (x y : Float) :
    unsignZero (op.apply (unsignZero x) y) = unsignZero (op.apply x y) := by
  by_cases hx : rank x = 0
  · obtain ⟨s, hs⟩ := exists_unpack_eq_zero hx
    obtain ⟨t, ht⟩ := exists_unpack_eq_zero ((rank_unsignZero x).trans hx)
    cases op with
    | add =>
      have := alike_add t s y.toModel.unpack
      rw [← hs, ← ht] at this
      exact this.unsignZero_eq
    | sub =>
      have := alike_sub t s y.toModel.unpack
      rw [← hs, ← ht] at this
      exact this.unsignZero_eq
    | mul =>
      have := alike_mul t s y.toModel.unpack
      rw [← hs, ← ht] at this
      exact this.unsignZero_eq
    | div =>
      have := alike_div t s y.toModel.unpack
      rw [← hs, ← ht] at this
      exact this.unsignZero_eq
    | rem => exact unsignZero_remainder_unsignZero hx y
  · rw [unsignZero_of_rank_ne_zero hx]

/-! ## Zeros in results -/

namespace NumberFormat

variable {format : NumberFormat} {x : Float}

theorem write_of_rank_eq_zero (hformat : format.signedZero = false) (hx : rank x = 0) :
    format.write x = format.zero := by
  have hnan : ¬ isNaN x = true := by
    simp [isNaN, hx]
  rw [write, if_neg hnan, if_pos hx, hformat, if_neg Bool.false_ne_true]

/-- A format without signed zeros shows both zeros alike. -/
theorem write_unsignZero (hformat : format.signedZero = false) (x : Float) :
    format.write (unsignZero x) = format.write x := by
  by_cases hx : rank x = 0
  · rw [write_of_rank_eq_zero hformat hx,
      write_of_rank_eq_zero hformat ((rank_unsignZero x).trans hx)]
  · rw [unsignZero_of_rank_ne_zero hx]

end NumberFormat
end KeypadCalculator
