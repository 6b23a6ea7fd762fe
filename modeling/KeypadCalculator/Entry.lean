import KeypadCalculator.Operator

/-!
# The entry line

The expression as it is being typed, together with whether it is the result of the last
evaluation. The line keeps its numbers in shape while they are typed: a number has one point, a
point is never its first character, and a lone zero is not repeated. What counts as the number
being typed is the text after the last operator or parenthesis, its trailing segment.
-/

namespace KeypadCalculator

/-- The line being typed. -/
structure Entry where
  text : List Char := []
  /-- Whether the text is a result and nothing has been changed since. -/
  isResult : Bool := false
  deriving DecidableEq, Repr

/-- Why a character is not taken. -/
inductive Rejection where
  /-- A point in a number that has one. -/
  | secondPoint
  /-- A zero after a lone zero. -/
  | leadingZero
  /-- An operator other than minus at the start of the line. -/
  | leadingOperator (c : Char)
  deriving DecidableEq, Repr

namespace Entry

/-! ## Looking at the line -/

/-- Whether the character ends the number before it: an operator or a parenthesis. -/
def isBreak (c : Char) : Bool :=
  Operator.isSymbol c || c == '(' || c == ')'

/-- What stands after the last operator or parenthesis. -/
def trailingSegment (text : List Char) : List Char :=
  (text.reverse.takeWhile fun c => !isBreak c).reverse

/-- Whether the line ends with an operator. -/
def endsWithOperator (e : Entry) : Bool :=
  e.text.getLast?.any Operator.isSymbol

/-! ## Changing the line -/

/-- The empty line. -/
def clear (_ : Entry) : Entry :=
  {}

/-- The line without its last character. -/
def backspace (e : Entry) : Entry :=
  { text := e.text.dropLast }

/-- The line that shows a result. -/
def ofResult (text : List Char) : Entry :=
  { text, isResult := true }

/-- The line with `op` in place of the operator at its end; the same line if there is none. -/
def replaceOperator (e : Entry) (op : Char) : Entry :=
  if e.endsWithOperator then { text := e.text.dropLast ++ [op] } else e

/-- The line that `c` is put on: a digit or a point after a result starts a new one. -/
def base (e : Entry) (c : Char) : Entry :=
  if e.isResult && (c.isDigit || c == '.') then {} else e

/-- Why `c` may not be put at the end of `text`, if it may not. -/
def rejection? (text : List Char) (c : Char) : Option Rejection :=
  if c = '.' ∧ '.' ∈ trailingSegment text then some .secondPoint
  else if c = '0' ∧ trailingSegment text = ['0'] then some .leadingZero
  else none

/-- The text with `c` at its end, and a zero before a point that would begin a number. -/
def extended (text : List Char) (c : Char) : List Char :=
  if c = '.' ∧ trailingSegment text = [] then text ++ ['0', c] else text ++ [c]

/-- Puts one character at the end of the line, or tells why not. -/
def append (e : Entry) (c : Char) : Entry × Option Rejection :=
  let base := e.base c
  match rejection? base.text c with
  | some rejection => (base, some rejection)
  | none => ({ text := extended base.text c }, none)

/-- Types one character. An operator does not start a line unless it is a minus, and takes the place
of an operator before it; anything else is put at the end. -/
def type (e : Entry) (c : Char) : Entry × Option Rejection :=
  if Operator.isSymbol c then
    if e.text.isEmpty && c != '-' then (e, some (.leadingOperator c))
    else if e.endsWithOperator then (e.replaceOperator c, none)
    else e.append c
  else e.append c

end Entry
end KeypadCalculator
