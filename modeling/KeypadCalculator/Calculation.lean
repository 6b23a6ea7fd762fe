import KeypadCalculator.Token

/-!
# Calculating while tokens arrive

A calculation takes the tokens of an expression one by one and never builds a tree. It keeps one
operand and a stack of what is pending: operators that wait for their right operand, and open
groups. An operator first carries out the pending operators that bind at least as tightly, so equal
precedence groups to the left; a closing parenthesis carries out everything back to its group.

A plus or minus where an operand is awaited is a sign. Signs are gathered before the number or
group they belong to, and only whether they negate it is kept.
-/

namespace KeypadCalculator

/-- Why tokens are not an expression. -/
inductive SyntaxError where
  /-- Something else stands where an operand is awaited. -/
  | numberExpected
  /-- An operand follows an operand. -/
  | operatorExpected
  /-- A closing parenthesis without its opening one. -/
  | unbalanced
  /-- An opening parenthesis without its closing one. -/
  | unclosed
  deriving DecidableEq, Repr

/-- The wording of a syntax error. -/
def SyntaxError.message : SyntaxError → String
  | numberExpected => "Number expected"
  | operatorExpected => "Operation expected"
  | unbalanced => "Unbalanced closing parenthesis"
  | unclosed => "Unclosed parenthesis"

/-- The operand at which a calculation stands. -/
inductive Operand where
  /-- Still to come, to be negated or not. -/
  | awaited (negated : Bool)
  /-- Complete. -/
  | value (v : Float)
  deriving DecidableEq, Repr

/-- What waits for the operand to be complete. -/
inductive Pending where
  /-- An operator with its left operand. -/
  | deferred (left : Float) (op : Operator)
  /-- An open group, to be negated or not. -/
  | group (negated : Bool)
  deriving DecidableEq, Repr

/-- An operand and what is pending before it, the latest first. -/
structure Calculation where
  operand : Operand := .awaited false
  pending : List Pending := []
  deriving DecidableEq, Repr

/-- A value with the sign gathered before it. -/
def signed (negated : Bool) (v : Float) : Float :=
  if negated then -v else v

namespace Calculation

/-! ## Carrying out what is pending -/

/-- Carries out the latest pending operators that bind at least as tightly as `precedence`, up to
the innermost open group: the value they yield, and what stays pending. -/
def reduce (precedence : Nat) (v : Float) : List Pending → Float × List Pending
  | .deferred left op :: rest =>
    if op.precedence < precedence then (v, .deferred left op :: rest)
    else reduce precedence (op.apply left v) rest
  | pending => (v, pending)

/-- Carries out everything back to the innermost open group and closes it, or nothing when no group
is open. -/
def closeGroup (v : Float) : List Pending → Option (Float × List Pending)
  | .deferred left op :: rest => closeGroup (op.apply left v) rest
  | .group negated :: rest => some (signed negated v, rest)
  | [] => none

/-- Carries out everything; an open group is an error. -/
def unwind (v : Float) : List Pending → Except SyntaxError Float
  | .deferred left op :: rest => unwind (op.apply left v) rest
  | .group _ :: _ => .error .unclosed
  | [] => .ok v

/-! ## Taking tokens -/

/-- Takes one token. After an unbalanced parenthesis nothing is pending; any other error leaves the
calculation as it was. -/
def push (c : Calculation) (token : Token) : Calculation × Except SyntaxError Unit :=
  match c.operand, token with
  | .awaited negated, .number v => ({ c with operand := .value (signed negated v) }, .ok ())
  | .awaited _, .operator .add => (c, .ok ())
  | .awaited negated, .operator .sub => ({ c with operand := .awaited (!negated) }, .ok ())
  | .awaited _, .operator _ => (c, .error .numberExpected)
  | .awaited negated, .openParen => (⟨.awaited false, .group negated :: c.pending⟩, .ok ())
  | .awaited _, .closeParen => (c, .error .numberExpected)
  | .value _, .number _ => (c, .error .operatorExpected)
  | .value _, .openParen => (c, .error .operatorExpected)
  | .value v, .operator op =>
    let (left, rest) := reduce op.precedence v c.pending
    (⟨.awaited false, .deferred left op :: rest⟩, .ok ())
  | .value v, .closeParen =>
    match closeGroup v c.pending with
    | some (v, rest) => (⟨.value v, rest⟩, .ok ())
    | none => (⟨.value v, []⟩, .error .unbalanced)

/-- The value of the expression whose tokens were taken. -/
def outcome (c : Calculation) : Except SyntaxError Float :=
  match c.operand with
  | .awaited _ => .error .numberExpected
  | .value v => unwind v c.pending

/-- Ends the expression: its value comes out, and the calculation is ready for another one. -/
def finish (c : Calculation) : Calculation × Except SyntaxError Float :=
  ({}, c.outcome)

/-! ## Runs -/

/-- What a calculation may be given. -/
inductive Input where
  | token (token : Token)
  | finish
  deriving DecidableEq, Repr

/-- Takes one input; the answer to a token holds no value. -/
def step (c : Calculation) : Input → Calculation × Except SyntaxError (Option Float)
  | .token token =>
    let (next, answer) := c.push token
    (next, answer.map fun _ => none)
  | .finish =>
    let (next, answer) := c.finish
    (next, answer.map some)

/-- Takes all tokens, up to the first error. -/
def pushAll (c : Calculation) : List Token → Except SyntaxError Calculation
  | [] => .ok c
  | token :: rest =>
    match c.push token with
    | (_, .error e) => .error e
    | (next, .ok ()) => next.pushAll rest

end Calculation
end KeypadCalculator
