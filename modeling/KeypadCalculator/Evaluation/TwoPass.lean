import KeypadCalculator.Evaluation

/-!
# Evaluating in two passes

The other way to evaluate a text: first read all of it into tokens, then calculate with them. A
mistake of the lexer counts only if the tokens before it are taken without a mistake, and the end of
the tokens is looked at only if there is none.
-/

namespace KeypadCalculator.Evaluation

/-- The value of a text that has no fault as a whole, in two passes. -/
def calculateScanned (text : List Char) : Except EvaluationError Float :=
  let (tokens, error) := Lexer.ready.scan text
  match ({} : Calculation).pushAll tokens with
  | .error e => .error (.structural e)
  | .ok c =>
    match error with
    | some e => .error (.lexical e)
    | none => c.outcome.mapError .structural

/-- The finite value of a text, in two passes. -/
def evaluateInTwoPasses (text : List Char) : Except EvaluationError Float :=
  match fault? (normalize text) with
  | some e => .error e
  | none =>
    match calculateScanned (normalize text) with
    | .error e => .error e
    | .ok v => if Binary.isFinite v then .ok v else .error .notFinite

end KeypadCalculator.Evaluation
