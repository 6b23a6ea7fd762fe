import KeypadCalculator.Proofs.Evaluation.Value
import KeypadCalculator.Proofs.Lexer.Mistakes

/-!
# What an evaluation can fail with

Every error is accounted for by the text (`fault_of_evaluate`). The checks of the text as a whole
report what they look for, and in a text that passes them a lexical error is a mistake that the text
has. A character that is in no token does not get past the checks, so the lexer is never given one
(`evaluate_ne_unexpected`).
-/

namespace KeypadCalculator
namespace Evaluation

open Lexer (Mistake)

variable {text : List Char} {e : EvaluationError}

/-- `Fault text e` says what is known of a normalized text that fails with `e`. -/
inductive Fault (text : List Char) : EvaluationError → Prop
  /-- There is nothing to evaluate, or a character that expressions do not have. -/
  | characters (h : text = [] ∨ ∃ c ∈ text, isAllowed c = false) : Fault text .invalidCharacters
  /-- Two of `*` and `/` stand next to each other. -/
  | operators (h : hasScalingRun text = true) : Fault text .invalidOperatorSequence
  /-- There are too many characters. -/
  | length (h : maxLength < text.length) : Fault text .tooLong
  /-- The text passes the checks, and has a mistake in its lexemes. -/
  | lexemes {cause : LexicalError} (hcheck : fault? text = none) (h : Mistake text cause) :
      Fault text (.lexical cause)
  /-- The text passes the checks, but its tokens are no expression. -/
  | tokens {cause : SyntaxError} (hcheck : fault? text = none) : Fault text (.structural cause)
  /-- The text passes the checks, but its value is not finite. -/
  | value (hcheck : fault? text = none) : Fault text .notFinite

theorem fault_of_fault? (h : fault? text = some e) : Fault text e := by
  unfold fault? at h
  split at h
  · rename_i hcheck
    obtain rfl := Option.some.inj h
    exact .characters (by simpa using hcheck)
  · split at h
    · rename_i hcheck
      obtain rfl := Option.some.inj h
      exact .operators hcheck
    · split at h
      · rename_i hcheck
        obtain rfl := Option.some.inj h
        exact .length hcheck
      · cases h

/-- Two passes fail because of the tokens, or with the error of the scan. -/
theorem fault_of_conclude {c : Calculation} (hcheck : fault? text = none)
    (h : conclude c (Lexer.ready.scan text) = .error e) : Fault text e := by
  unfold conclude at h
  split at h
  · obtain rfl := Except.error.inj h
    exact .tokens hcheck
  · rename_i last _
    split at h
    · rename_i cause hscan
      obtain rfl := Except.error.inj h
      exact .lexemes hcheck (Lexer.mistake_of_scan hscan)
    · cases houtcome : last.outcome with
      | error cause =>
        rw [houtcome] at h
        obtain rfl := Except.error.inj h
        exact .tokens hcheck
      | ok v =>
        rw [houtcome] at h
        cases h

/-- **Every error is accounted for by the text.** -/
theorem fault_of_evaluate (h : evaluate text = .error e) : Fault (normalize text) e := by
  unfold evaluate value at h
  cases hfault : fault? (normalize text) with
  | some fault =>
    rw [hfault] at h
    obtain rfl := Except.error.inj h
    exact fault_of_fault? hfault
  | none =>
    rw [hfault, stream_eq_conclude] at h
    dsimp only at h
    cases hvalue : conclude {} (Lexer.ready.scan (normalize text)) with
    | error fault =>
      rw [hvalue] at h
      obtain rfl := Except.error.inj h
      exact fault_of_conclude hfault hvalue
    | ok v =>
      rw [hvalue] at h
      dsimp only at h
      split at h
      · cases h
      · obtain rfl := Except.error.inj h
        exact .value hfault

/-- A character of an expression that is in no numeral and is not blank is a token. -/
theorem ofChar?_ne_none {c : Char} (h : isAllowed c = true) (hn : Numeral.isNumeralChar c = false)
    (hb : Text.isBlank c = false) : Token.ofChar? c ≠ none := by
  have hsingle := ((kind_of_isAllowed h).resolve_left (by simp [hn])).resolve_left (by simp [hb])
  rw [← Lexeme.single?_eq_ofChar?, ← Option.isSome_iff_ne_none]
  exact Lexeme.isSome_single?_iff.2 hsingle

/-- The lexer is given no character that is in no token. -/
theorem evaluate_ne_unexpected (c : Char) : evaluate text ≠ .error (.lexical (.unexpected c)) := by
  intro h
  cases fault_of_evaluate h with
  | lexemes hcheck hmistake =>
    cases hmistake with
    | unexpected hmem hn hb ht =>
      have hallowed := (fault?_eq_none_iff.1 hcheck).2.2.1 c hmem
      exact ofChar?_ne_none hallowed hn hb ht

/-- The letter of an exponent is no character of an expression. -/
theorem evaluate_of_e_mem (h : 'e' ∈ text) : evaluate text = .error .invalidCharacters := by
  have hmem : 'e' ∈ normalize text := List.mem_map.2 ⟨'e', h, rfl⟩
  have hall : (normalize text).all isAllowed = false :=
    List.all_eq_false.2 ⟨'e', hmem, Bool.false_ne_true⟩
  have hfault : fault? (normalize text) = some .invalidCharacters := by
    rw [fault?, hall, Bool.not_false, Bool.or_true, if_pos rfl]
  rw [evaluate, value, hfault]

end Evaluation
end KeypadCalculator
