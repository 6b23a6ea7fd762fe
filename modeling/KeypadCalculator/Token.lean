import KeypadCalculator.Operator

/-!
# Tokens

What an expression is made of once its text is read: numbers, operators and parentheses.
-/

namespace KeypadCalculator

/-- A token of an expression. -/
inductive Token where
  | number (value : Float)
  | operator (op : Operator)
  | openParen
  | closeParen
  deriving DecidableEq, Repr

/-- The token that a single character stands for. -/
def Token.ofChar? : Char → Option Token
  | '(' => some openParen
  | ')' => some closeParen
  | c => (Operator.ofChar? c).map operator

end KeypadCalculator
