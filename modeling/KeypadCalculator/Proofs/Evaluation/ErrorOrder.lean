import KeypadCalculator.Proofs.Evaluation.Errors

/-!
# Which error is reported

Of several mistakes in a text one is reported (`evaluate_in_order`). The checks of the text as a
whole come first, in a fixed order. After them, although lexer and calculation take turns, it is as
if the text were first read into tokens as far as that goes: a token that the calculation rejects
counts before the error that the lexer ended with, and only then is it asked what the end of the
tokens lacks, and last whether the value is finite.

An error of the lexer says which of the longest runs of digits and points is no numeral, or which
sign is repeated. There is no third kind, because the checks keep every character away that is in
no token (`exists_mistake_of_scan`).
-/

namespace KeypadCalculator
namespace Evaluation

variable {text : List Char}

/-! ## The checks in their order -/

/-- Some character is neither a digit nor one of those that expressions are made of. -/
def HasForeignCharacter (text : List Char) : Prop :=
  ∃ c ∈ text, ¬ (c.isDigit = true ∨ c ∈ ['+', '-', '*', '/', '%', '.', '(', ')', ' '])

/-- Two of `*` and `/` stand next to each other. -/
def HasScalingPair (text : List Char) : Prop :=
  ∃ a ∈ ['*', '/'], ∃ b ∈ ['*', '/'], [a, b] <:+: text

instance (text : List Char) : Decidable (HasForeignCharacter text) :=
  inferInstanceAs (Decidable (∃ c ∈ text, _))

instance (text : List Char) : Decidable (HasScalingPair text) :=
  inferInstanceAs (Decidable (∃ a ∈ ['*', '/'], _))

theorem hasForeignCharacter_iff : HasForeignCharacter text ↔ ¬ text.all isAllowed = true := by
  rw [HasForeignCharacter, List.all_eq_true]
  simp only [isAllowed_iff, not_forall, exists_prop]

/-- The first fault of a text, said of its characters. -/
theorem fault?_eq (text : List Char) : fault? text =
    if text = [] ∨ HasForeignCharacter text then some .invalidCharacters
    else if HasScalingPair text then some .invalidOperatorSequence
    else if 120 < text.length then some .tooLong
    else none := by
  have hcharacters : (text.isEmpty || !text.all isAllowed) = true ↔
      text = [] ∨ HasForeignCharacter text := by
    rw [Bool.or_eq_true, List.isEmpty_iff, hasForeignCharacter_iff, Bool.not_eq_true',
      Bool.not_eq_true]
  have hoperators : hasScalingRun text = true ↔ HasScalingPair text := hasScalingRun_eq_true_iff
  unfold fault?
  simp only [hcharacters, hoperators]
  rfl

/-! ## One pass and two passes -/

/-- **An evaluation comes to the same in two passes.** -/
theorem evaluate_eq_evaluateInTwoPasses (text : List Char) :
    evaluate text = evaluateInTwoPasses text := by
  have hstream : stream .ready {} (normalize text) = calculateScanned (normalize text) :=
    stream_eq_conclude .ready {} (normalize text)
  unfold evaluate value evaluateInTwoPasses
  rw [hstream]
  cases fault? (normalize text) with
  | some e => rfl
  | none => rfl

/-- What two passes come to, case by case: the tokens are taken or one is rejected, and the scan has
ended with an error or without. -/
theorem finite_calculateScanned (text : List Char) :
    (match calculateScanned text with
      | .error e => .error e
      | .ok v => if Binary.isFinite v = true then .ok v else .error .notFinite :
        Except EvaluationError Float)
    = match Calculation.pushAll {} (Lexer.ready.scan text).1, (Lexer.ready.scan text).2 with
      | .error cause, _ => .error (.structural cause)
      | .ok _, some cause => .error (.lexical cause)
      | .ok last, none => match last.outcome with
        | .error cause => .error (.structural cause)
        | .ok v => if Binary.isFinite v = true then .ok v else .error .notFinite := by
  unfold calculateScanned
  obtain ⟨tokens, error⟩ := Lexer.ready.scan text
  dsimp only
  cases Calculation.pushAll {} tokens with
  | error cause => rfl
  | ok last =>
    cases error with
    | some cause => rfl
    | none =>
      dsimp only
      cases last.outcome with
      | error cause => rfl
      | ok v => rfl

/-! ## Errors of the lexer -/

/-- An error with which the lexer ends the text of an expression is a longest run of digits and
points that is no numeral, or a plus or minus directly after itself. -/
theorem exists_mistake_of_scan (hallowed : ¬ HasForeignCharacter text) {cause : LexicalError}
    (h : (Lexer.ready.scan text).2 = some cause) :
    (∃ run ∈ Lexeme.numeralRuns text, Numeral.isNumeral run = false ∧ cause = .badNumeral run) ∨
    (∃ op : Operator, (op = .add ∨ op = .sub) ∧ [op.symbol, op.symbol] <:+: text ∧
      cause = .doubledSign op) := by
  rw [hasForeignCharacter_iff, not_not, List.all_eq_true] at hallowed
  cases Lexer.mistake_of_scan h with
  | badNumeral hmem hrun => exact .inl ⟨_, hmem, hrun, rfl⟩
  | doubledSign hop hpair => exact .inr ⟨_, hop, hpair, rfl⟩
  | @unexpected c hmem hn hb ht => exact absurd ht (ofChar?_ne_none (hallowed c hmem) hn hb)

/-! ## All together -/

/-- **The errors of a text in their order.** With the display signs replaced, a text is first
checked for its characters, then for its signs, then for its length. After that it is scanned, and
what counts is the first token that a calculation rejects; if there is none, the error that the scan
ended with; if there is none, what the end of the tokens lacks; and if it lacks nothing, whether the
value is finite. An error of the scan tells of a longest run of digits and points or of a doubled
sign, never of a character that is in no token. -/
theorem evaluate_in_order (text : List Char) :
    let expression := normalize text
    let scanned := Lexer.ready.scan expression
    (evaluate text =
      if expression = [] ∨ HasForeignCharacter expression then .error .invalidCharacters
      else if HasScalingPair expression then .error .invalidOperatorSequence
      else if 120 < expression.length then .error .tooLong
      else match Calculation.pushAll {} scanned.1, scanned.2 with
        | .error cause, _ => .error (.structural cause)
        | .ok _, some cause => .error (.lexical cause)
        | .ok last, none => match last.outcome with
          | .error cause => .error (.structural cause)
          | .ok v => if Binary.isFinite v = true then .ok v else .error .notFinite) ∧
    (¬ HasForeignCharacter expression → ∀ cause, scanned.2 = some cause →
      (∃ run ∈ Lexeme.numeralRuns expression, Numeral.isNumeral run = false ∧
        cause = .badNumeral run) ∨
      (∃ op : Operator, (op = .add ∨ op = .sub) ∧ [op.symbol, op.symbol] <:+: expression ∧
        cause = .doubledSign op)) ∧
    (∀ c, evaluate text ≠ .error (.lexical (.unexpected c))) := by
  intro expression scanned
  refine ⟨?_, fun hallowed cause h => exists_mistake_of_scan hallowed h, fun c =>
    evaluate_ne_unexpected c⟩
  rw [evaluate_eq_evaluateInTwoPasses, evaluateInTwoPasses, fault?_eq]
  by_cases hcharacters : expression = [] ∨ HasForeignCharacter expression
  · rw [if_pos hcharacters, if_pos hcharacters]
  rw [if_neg hcharacters, if_neg hcharacters]
  by_cases hoperators : HasScalingPair expression
  · rw [if_pos hoperators, if_pos hoperators]
  rw [if_neg hoperators, if_neg hoperators]
  by_cases hlength : 120 < expression.length
  · rw [if_pos hlength, if_pos hlength]
  rw [if_neg hlength, if_neg hlength]
  exact finite_calculateScanned expression

-- the third token is rejected before the run `1.2.3` is seen, and after it the run comes first
example : evaluate "2(1.2.3".toList = .error (.structural .operatorExpected) := by decide +kernel
example : evaluate "2+1.2.3(4".toList = .error (.lexical (.badNumeral "1.2.3".toList)) := by
  decide +kernel

end Evaluation
end KeypadCalculator
