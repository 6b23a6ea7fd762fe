import KeypadCalculator.Proofs.Evaluation.Errors
import KeypadCalculator.Proofs.Lexer.Spacing

/-!
# Spaces in an expression

A space between two tokens of an expression, before the first or behind the last one changes nothing
about what the expression comes to (`evaluate_insert_space`), as long as it comes to something that
the calculation answers: a value, one that is not finite, or an error in the order of the tokens.

An error of the lexer is another matter, because a space can mend it: `1++2` fails, `1+ +2` does
not. But it does not matter where the calculation fails before the lexer does. The lexer then gets
as far with the space as without, and the calculation fails at the same token
(`conclude_of_readsAsFar`).
-/

namespace KeypadCalculator

open Numeral (isNumeralChar)

/-- A pair of characters that has nothing to do with `d` is not brought about by a `d`. -/
theorem pair_infix_of_insert {a b d : Char} {first second : List Char} (ha : a ≠ d) (hb : b ≠ d)
    (h : [a, b] <:+: first ++ d :: second) : [a, b] <:+: first ++ second := by
  induction first with
  | nil =>
    rcases pair_infix_cons_iff.1 h with ⟨had, -⟩ | h
    · exact absurd had ha
    · exact h
  | cons c rest ih =>
    rw [List.cons_append, pair_infix_cons_iff] at h ⊢
    rcases h with ⟨hc, hhead⟩ | h
    · left
      refine ⟨hc, ?_⟩
      cases rest with
      | nil => exact absurd (Option.some.inj hhead).symm hb
      | cons e rest => exact hhead
    · exact .inr (ih h)

namespace Evaluation

open Lexer (ReadsAsFar readsAsFar_insert_blank)

variable {text first second : List Char}

/-! ## The checks of the text as a whole -/

theorem normalize_insert_space (first second : List Char) :
    normalize (first ++ ' ' :: second) = normalize first ++ ' ' :: normalize second :=
  List.map_append

theorem normalize_append (first second : List Char) :
    normalize (first ++ second) = normalize first ++ normalize second :=
  List.map_append

/-- The signs of a display are no digits, and neither are those in their place. -/
theorem cutsNoRun_normalize_iff :
    CutsNoRun (normalize first) (normalize second) ↔ CutsNoRun first second := by
  have hchar (c : Char) : isNumeralChar (if c = '×' then '*' else if c = '÷' then '/' else c)
      = isNumeralChar c := by
    split
    · rename_i hc
      rw [hc]
      rfl
    · split
      · rename_i hc
        rw [hc]
        rfl
      · rfl
  simp only [CutsNoRun, normalize, List.getLast?_map, List.head?_map, Option.any_map, hchar]

/-- A space brings about no fault of the text as a whole but its length. -/
theorem fault?_insert_space (h : fault? (first ++ second) = none)
    (hlength : (first ++ ' ' :: second).length ≤ 120) :
    fault? (first ++ ' ' :: second) = none := by
  rw [fault?_eq_none_iff, hasScalingRun_eq_true_iff] at h ⊢
  obtain ⟨-, -, hall, hscaling⟩ := h
  refine ⟨?_, hlength, fun c hc => ?_, ?_⟩
  · rw [List.length_append, List.length_cons]
    omega
  · rw [List.mem_append, List.mem_cons] at hc
    rcases hc with hc | rfl | hc
    · exact hall c (List.mem_append_left _ hc)
    · rfl
    · exact hall c (List.mem_append_right _ hc)
  · rintro ⟨a, ha, b, hb, hpair⟩
    have hspace : ∀ c ∈ ['*', '/'], c ≠ ' ' := by simp
    exact hscaling ⟨a, ha, b, hb, pair_infix_of_insert (hspace a ha) (hspace b hb) hpair⟩

/-! ## The calculation -/

/-- A scan that gets as far comes to the same, unless it was the lexer that failed. -/
theorem conclude_of_readsAsFar {c : Calculation} {scanned other : List Token × Option LexicalError}
    (hfar : ReadsAsFar scanned other)
    (h : ∀ cause, conclude c scanned ≠ .error (.lexical cause)) :
    conclude c other = conclude c scanned := by
  cases hend : scanned.2 with
  | none => rw [hfar.2 hend]
  | some cause =>
    obtain ⟨more, hmore⟩ := hfar.1
    unfold conclude at h ⊢
    rw [hend] at h ⊢
    rw [← hmore, Calculation.pushAll_append]
    cases hrun : c.pushAll scanned.1 with
    | error e => rfl
    | ok last =>
      rw [hrun] at h
      exact absurd rfl (h cause)

/-- The outcome is one of the calculation: a value, finite or not, or an error in the order of the
tokens. -/
def OfCalculation (outcome : Except EvaluationError Float) : Prop :=
  (∃ v, outcome = .ok v) ∨ outcome = .error .notFinite ∨
    ∃ cause, outcome = .error (.structural cause)

theorem OfCalculation.fault?_eq_none (h : OfCalculation (evaluate text)) :
    fault? (normalize text) = none := by
  rcases h with ⟨v, hv⟩ | hv | ⟨cause, hv⟩
  · have hvalue := (evaluate_eq_ok_iff.1 hv).1
    exact (acceptable_iff.1 (value_eq_ok_iff.1 hvalue).1).1
  · cases fault_of_evaluate hv with
    | value hcheck => exact hcheck
  · cases fault_of_evaluate hv with
    | tokens hcheck => exact hcheck

theorem OfCalculation.value_ne_lexical (h : OfCalculation (evaluate text)) (cause : LexicalError) :
    value text ≠ .error (.lexical cause) := by
  intro hvalue
  rw [evaluate, hvalue] at h
  rcases h with ⟨v, hv⟩ | hv | ⟨other, hv⟩
  · cases hv
  · cases hv
  · cases hv

theorem value_eq_conclude (h : fault? (normalize text) = none) :
    value text = conclude {} (Lexer.ready.scan (normalize text)) := by
  rw [value, h]
  exact stream_eq_conclude .ready {} (normalize text)

/-- **A space between tokens changes nothing.** -/
theorem evaluate_insert_space (h : OfCalculation (evaluate (first ++ second)))
    (hcut : CutsNoRun first second) (hlength : (first ++ ' ' :: second).length ≤ 120) :
    evaluate (first ++ ' ' :: second) = evaluate (first ++ second) := by
  have hfault := h.fault?_eq_none
  have hspaced : fault? (normalize (first ++ ' ' :: second)) = none := by
    rw [normalize_insert_space]
    rw [normalize_append] at hfault
    apply fault?_insert_space hfault
    simpa [normalize] using hlength
  have hfar : ReadsAsFar (Lexer.ready.scan (normalize (first ++ second)))
      (Lexer.ready.scan (normalize (first ++ ' ' :: second))) := by
    rw [normalize_append, normalize_insert_space]
    exact readsAsFar_insert_blank rfl (cutsNoRun_normalize_iff.2 hcut) fun _ _ hrun => nomatch hrun
  have hlexical := h.value_ne_lexical
  rw [value_eq_conclude hfault] at hlexical
  have hvalue : value (first ++ ' ' :: second) = value (first ++ second) := by
    rw [value_eq_conclude hspaced, value_eq_conclude hfault]
    exact conclude_of_readsAsFar hfar hlexical
  rw [evaluate, evaluate, hvalue]

end Evaluation
end KeypadCalculator
