import KeypadCalculator.Calculation
import KeypadCalculator.Lexer

/-!
# Evaluating the text of an expression

The text is checked as a whole before anything is calculated: which characters it has, whether `*`
and `/` stand next to each other, and how long it is. Then its characters go through a lexer and the
tokens through a calculation, one by one, so of several mistakes the one that the stream meets first
is reported. A value that is not finite is an error too, at the very end: infinities on the way to a
finite value do no harm.
-/

namespace KeypadCalculator

/-- Why a text has no value. -/
inductive EvaluationError where
  | invalidCharacters
  | invalidOperatorSequence
  | tooLong
  | lexical (cause : LexicalError)
  | structural (cause : SyntaxError)
  | notFinite
  deriving DecidableEq, Repr

/-- The wording of an evaluation error. -/
def EvaluationError.message : EvaluationError → String
  | invalidCharacters => "Invalid characters in expression"
  | invalidOperatorSequence => "Invalid operator sequence"
  | tooLong => "Expression too long"
  | lexical cause => cause.message
  | structural cause => cause.message
  | notFinite => "Math error"

namespace Evaluation

/-! ## The text as a whole -/

/-- Puts the operator signs in place of the signs `×` and `÷` of a display. -/
def normalize (text : List Char) : List Char :=
  text.map fun c => if c = '×' then '*' else if c = '÷' then '/' else c

/-- The characters that an expression may have. -/
def isAllowed (c : Char) : Bool :=
  Numeral.isNumeralChar c || Operator.isSymbol c || c == '(' || c == ')' || c == ' '

/-- The signs of which no two may stand next to each other. -/
def isScaling (c : Char) : Bool :=
  c == '*' || c == '/'

/-- Whether two scaling signs stand next to each other. -/
def hasScalingRun (text : List Char) : Bool :=
  (text.zip text.tail).any fun (a, b) => isScaling a && isScaling b

/-- The number of characters that an expression may have. -/
def maxLength : Nat :=
  120

/-- The first fault of the text as a whole. -/
def fault? (text : List Char) : Option EvaluationError :=
  if text.isEmpty || !text.all isAllowed then some .invalidCharacters
  else if hasScalingRun text then some .invalidOperatorSequence
  else if maxLength < text.length then some .tooLong
  else none

/-! ## The stream of characters -/

/-- Gives a token, if there is one, to the calculation. -/
def supply (c : Calculation) : Option Token → Except EvaluationError Calculation
  | none => .ok c
  | some token =>
    match c.push token with
    | (c, .ok ()) => .ok c
    | (_, .error e) => .error (.structural e)

/-- The value of the characters to come, given what the lexer holds back and what is calculated. -/
def stream (lexer : Lexer) (c : Calculation) : List Char → Except EvaluationError Float
  | [] =>
    match lexer.release with
    | .error e => .error (.lexical e)
    | .ok token =>
      match supply c token with
      | .error e => .error e
      | .ok c => c.outcome.mapError .structural
  | char :: rest =>
    match lexer.feed char with
    | (_, .error e) => .error (.lexical e)
    | (lexer, .ok token) =>
      match supply c token with
      | .error e => .error e
      | .ok c => stream lexer c rest

/-! ## The whole -/

/-- The value of a text, which may be infinite or no number. -/
def value (text : List Char) : Except EvaluationError Float :=
  match fault? (normalize text) with
  | some e => .error e
  | none => stream .ready {} (normalize text)

/-- The finite value of a text. -/
def evaluate (text : List Char) : Except EvaluationError Float :=
  match value text with
  | .error e => .error e
  | .ok v => if Binary.isFinite v then .ok v else .error .notFinite

end Evaluation
end KeypadCalculator
