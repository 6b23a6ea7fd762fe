import KeypadCalculator.Calculation

/-!
# The grammar of expressions

Which lists of tokens are expressions, and what their values are, without regard to how they are
calculated. An expression is a sum of products of factors; sums and products group to the left. A
factor is a number or an expression in parentheses with any number of signs before it, and is
negated once when the minus signs among them are odd in number.
-/

namespace KeypadCalculator

/-- The sums are made with plus and minus; these two also serve as signs. -/
def Operator.isAdditive : Operator → Bool
  | .add | .sub => true
  | .mul | .div | .rem => false

namespace Expression

/-- The four kinds of phrases of the grammar. -/
inductive Phrase where
  /-- Products with plus and minus between them. -/
  | sum
  /-- Factors with the other operators between them. -/
  | product
  /-- An atom with signs before it. -/
  | factor
  /-- A number, or a sum in parentheses. -/
  | atom
  deriving DecidableEq, Repr

/-- `Derives phrase tokens v` says that the tokens are a phrase of that kind and have the value `v`. -/
inductive Derives : Phrase → List Token → Float → Prop
  | number (v : Float) : Derives .atom [.number v] v
  | group {tokens : List Token} {v : Float} (h : Derives .sum tokens v) :
      Derives .atom (.openParen :: tokens ++ [.closeParen]) v
  | factor {signs : List Operator} {tokens : List Token} {v : Float}
      (hs : ∀ s ∈ signs, s.isAdditive) (h : Derives .atom tokens v) :
      Derives .factor (signs.map .operator ++ tokens)
        (signed (signs.count .sub % 2 == 1) v)
  | ofFactor {tokens : List Token} {v : Float} (h : Derives .factor tokens v) :
      Derives .product tokens v
  | scaled {op : Operator} {left right : List Token} {l r : Float} (hop : op.isAdditive = false)
      (hl : Derives .product left l) (hr : Derives .factor right r) :
      Derives .product (left ++ .operator op :: right) (op.apply l r)
  | ofProduct {tokens : List Token} {v : Float} (h : Derives .product tokens v) :
      Derives .sum tokens v
  | added {op : Operator} {left right : List Token} {l r : Float} (hop : op.isAdditive = true)
      (hl : Derives .sum left l) (hr : Derives .product right r) :
      Derives .sum (left ++ .operator op :: right) (op.apply l r)

/-- The tokens are an expression with the value `v`. -/
abbrev HasValue (tokens : List Token) (v : Float) : Prop :=
  Derives .sum tokens v

/-- The tokens are the beginning of some expression, or all of it. -/
def IsBeginning (tokens : List Token) : Prop :=
  ∃ rest v, HasValue (tokens ++ rest) v

end Expression
end KeypadCalculator
