import KeypadCalculator.Proofs.Calculation.Steps
import KeypadCalculator.Stepwise

/-!
# Calculating on after an error

A token that is not taken leaves the calculation as it was, except for a closing parenthesis without
its opening one, which leaves the operand alone: what was pending is lost (`Rejects.leaves`). So
whatever errors there were, the calculation is where it would be after some tokens that are all
taken (`exists_pushAll_eq_final`). The end of an expression leaves nothing of it, whether it has a
value or not.

`goes_on_after_error` puts these together for the runs that do not stop at errors.
-/

namespace KeypadCalculator
namespace Calculation

open Stepwise (answers final answers_append_cons final_concat)

variable {c next : Calculation} {token : Token} {e : SyntaxError}

/-- **What a token leaves that is not taken**: the calculation as it was, or the operand alone. -/
theorem Rejects.leaves (h : Rejects c token e next) :
    ((e = .numberExpected ∨ e = .operatorExpected) ∧ next = c) ∨
      (e = .unbalanced ∧ openGroups c.pending = 0 ∧
        ∃ v, c.operand = .value v ∧ pushAll {} [.number v] = .ok next) := by
  cases h with
  | operator negated hop pending => exact .inl ⟨.inl rfl, rfl⟩
  | closeParen negated pending => exact .inl ⟨.inl rfl, rfl⟩
  | number v w pending => exact .inl ⟨.inr rfl, rfl⟩
  | openParen v pending => exact .inl ⟨.inr rfl, rfl⟩
  | unbalanced v hnone => exact .inr ⟨rfl, hnone, v, rfl, rfl⟩

/-- **Errors lead nowhere else.** What a calculation is after a run that went on after errors, it
also is after some tokens that are all taken. -/
theorem exists_pushAll_eq_final (inputs : List Input) :
    ∃ tokens, pushAll {} tokens = .ok (final step {} inputs) := by
  induction inputs using List.reverseRecOn with
  | nil => exact ⟨[], rfl⟩
  | append_singleton inputs i ih =>
    obtain ⟨tokens, htokens⟩ := ih
    rw [final_concat]
    cases i with
    | finish => exact ⟨[], rfl⟩
    | token token =>
      show ∃ tokens, pushAll {} tokens = .ok (push (final step {} inputs) token).1
      cases hpush : push (final step {} inputs) token with
      | mk next answer =>
        cases answer with
        | ok _ =>
          exact ⟨tokens ++ [token],
            pushAll_concat_eq_ok_iff.2 ⟨_, htokens, push_eq_ok_iff.1 hpush⟩⟩
        | error e =>
          rcases (push_eq_error_iff.1 hpush).leaves with ⟨-, rfl⟩ | ⟨-, -, v, -, hv⟩
          · exact ⟨tokens, htokens⟩
          · exact ⟨[.number v], hv⟩

/-- **A calculation goes on after errors.** In every run, a token where an operand or an operator
should be is answered with an error and changes nothing. A closing parenthesis without its opening
one finds no group open and leaves the operand alone, as if it were the first number of an
expression. There are no other errors of a token. After the end of an expression, with a value or
without, everything is answered as from the start; and whatever errors there were, the calculation
is where some tokens that are all taken would have led it. -/
theorem goes_on_after_error (inputs : List Input) :
    let c := final step {} inputs
    (∀ token next e, c.push token = (next, .error e) →
      ((e = .numberExpected ∨ e = .operatorExpected) ∧ next = c) ∨
      (e = .unbalanced ∧ openGroups c.pending = 0 ∧
        ∃ v, c.operand = .value v ∧ pushAll {} [.number v] = .ok next)) ∧
    (∀ later, answers step {} (inputs ++ .finish :: later)
      = answers step {} (inputs ++ [.finish]) ++ answers step {} later) ∧
    ∃ tokens, pushAll {} tokens = .ok c := by
  refine ⟨fun token next e hpush => ?_, fun later => ?_, exists_pushAll_eq_final inputs⟩
  · exact (push_eq_error_iff.1 hpush).leaves
  · exact answers_append_cons rfl later

-- the parenthesis drops `2 +`, and the second star changes nothing
example : answers step {} [.token (.number 2), .token (.operator .add), .token (.number 3),
      .token .closeParen, .token (.operator .mul), .token (.operator .mul), .token (.number 4),
      .finish] =
    [.ok none, .ok none, .ok none, .error .unbalanced, .ok none, .error .numberExpected, .ok none,
      .ok (some 12)] := by
  decide +kernel

end Calculation
end KeypadCalculator
