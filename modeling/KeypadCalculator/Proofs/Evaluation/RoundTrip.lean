import KeypadCalculator.Proofs.Evaluation.Errors
import KeypadCalculator.Proofs.Evaluation.Numerals
import KeypadCalculator.Proofs.Number.Width

/-!
# Evaluating a result

What a result shows is an expression again, as long as it has no exponent: then it is short enough,
and its numeral with the minus before it is worth the number itself (`evaluate_write`). A result
with an exponent is none.
-/

namespace KeypadCalculator
namespace Evaluation

open Binary (isFinite unsignZero)
open Expression (HasValue)
open NumberFormat (result signText)
open Numeral (IsPlain toDecimal)

variable {numeral : List Char} {x : Float}

/-- A numeral makes one token, or two with a minus before it. -/
theorem reads_signed (hnumeral : IsPlain numeral) (negated : Bool) :
    Reads (signText negated ++ numeral)
      (signTokens negated ++ [.number (toDecimal numeral).toFloat]) := by
  have hreads := (reads_nil.numeral hnumeral (by simp)).signed hnumeral negated
  rwa [List.append_nil] at hreads

/-- **A numeral is worth its number**, and with a minus before it the negated number. -/
theorem value_signed (hnumeral : IsPlain numeral) (negated : Bool)
    (hlength : (signText negated ++ numeral).length ≤ 120) :
    value (signText negated ++ numeral) = .ok (signed negated (toDecimal numeral).toFloat) := by
  have hsign : ∀ c ∈ signText negated, c = '-' := by
    cases negated <;> simp [signText]
  have hvalue : HasValue (signTokens negated ++ [.number (toDecimal numeral).toFloat])
      (signed negated (toDecimal numeral).toFloat) :=
    .ofProduct (.ofFactor (derives_signed negated _))
  have hnonempty : signText negated ++ numeral ≠ [] := by
    obtain ⟨c, hc, -⟩ := hnumeral.head
    exact List.append_ne_nil_of_right_ne_nil _ (List.ne_nil_of_mem (List.mem_of_mem_head? hc))
  have hallowed : ∀ c ∈ signText negated ++ numeral, isAllowed c = true := by
    intro c hc
    rcases List.mem_append.1 hc with hc | hc
    · rw [hsign c hc]
      rfl
    · exact isAllowed_of_isNumeralChar (hnumeral.characters c hc)
  have hscaling : (signText negated ++ numeral).countP isScaling ≤ 1 := by
    rw [List.countP_append, countP_isScaling_of_isPlain hnumeral]
    cases negated <;> decide
  exact value_of_reads (reads_signed hnumeral negated) hvalue hnonempty hlength hallowed hscaling

/-- A positional result is worth the number that it shows, without the sign of a zero. -/
theorem evaluate_write_of_isPositional (hfinite : isFinite x = true)
    (hx : result.IsPositional x) : evaluate (result.write x) = .ok (unsignZero x) := by
  have hlength := NumberFormat.length_write_le hfinite hx
  obtain ⟨negated, numeral, htext, hnumeral, hread⟩ :=
    NumberFormat.exists_write_eq_of_isPositional hfinite hx
  rw [evaluate_eq_ok_iff, Binary.isFinite_unsignZero]
  refine ⟨?_, hfinite⟩
  rw [htext] at hlength ⊢
  rw [value_signed hnumeral negated (by omega), hread]

/-- **A result is worth itself as long as it has no exponent.** Zero and the numbers from `1e-6` up
to below `1e21` in magnitude are read back as they are, but for the sign of a zero; the text of any
other finite number is no expression. -/
theorem evaluate_write (x : Float) (hfinite : isFinite x = true) :
    evaluate (result.write x) =
      if x == 0 then .ok 0
      else if 1e-6 ≤ x.abs ∧ x.abs < 1e21 then .ok x
      else .error .invalidCharacters := by
  have hpositional := NumberFormat.isPositional_iff hfinite
  by_cases hzero : (x == 0) = true
  · have hrank : Binary.rank x = 0 := (Binary.beq_zero_iff hfinite).1 hzero
    rw [if_pos hzero, evaluate_write_of_isPositional hfinite (.inl hrank),
      Binary.unsignZero_of_rank_eq_zero hrank]
    rfl
  · have hrank : Binary.rank x ≠ 0 := fun h => hzero ((Binary.beq_zero_iff hfinite).2 h)
    rw [if_neg hzero]
    by_cases hrange : 1e-6 ≤ x.abs ∧ x.abs < 1e21
    · rw [if_pos hrange, evaluate_write_of_isPositional hfinite (hpositional.2 (.inr hrange)),
        Binary.unsignZero_of_rank_ne_zero hrank]
    · have hmem : 'e' ∈ result.write x :=
        (NumberFormat.e_mem_write_iff hfinite).2 fun h =>
          (hpositional.1 h).elim hzero hrange
      rw [if_neg hrange, evaluate_of_e_mem hmem]

/-- The product of `0.1` and `3` is shown with all its digits, and they are worth that product. -/
theorem evaluate_write_product : isFinite (0.1 * 3) = true ∧
    evaluate (result.write (0.1 * 3)) = .ok (0.1 * 3) := by
  have hfinite : isFinite (0.1 * 3) = true := by decide +kernel
  have hne : ¬ (0.1 * 3 == (0 : Float)) = true := by decide +kernel
  have hrange : 1e-6 ≤ (0.1 * 3 : Float).abs ∧ (0.1 * 3 : Float).abs < 1e21 := by decide +kernel
  refine ⟨hfinite, (evaluate_write _ hfinite).trans ?_⟩
  rw [if_neg hne, if_pos hrange]

end Evaluation
end KeypadCalculator
