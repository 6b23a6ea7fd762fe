import KeypadCalculator.Number.Binary

/-!
# Decimals

A decimal is a whole number times a power of ten. It is what a numeral denotes and what a number
format writes; `Decimal.rank` rounds it to a double, and `Decimal.significant` and
`Decimal.exponentOfFirst` give the two things a format lays out.
-/

namespace KeypadCalculator

-- The powers below are those of the core library, also in a file that sees another `Pow Nat Nat`.
attribute [local instance (high)] instPowNat instNatPowNat

/-- The non-negative number `digits * 10 ^ exponent`. -/
structure Decimal where
  /-- The digits, read as one whole number. -/
  digits : Nat
  /-- The power of ten that the last digit counts. -/
  exponent : Int
  deriving DecidableEq, Repr

namespace Decimal

/-! ## Rounding to a double -/

/-- The rank of the double nearest to the decimal. -/
def rank (d : Decimal) : Nat :=
  Binary.nearestRank (d.digits * 10 ^ d.exponent.toNat) (10 ^ (-d.exponent).toNat)

/-- The double nearest to the decimal; infinity if it is too large. -/
def toFloat (d : Decimal) : Float :=
  Binary.ofRank false d.rank

/-! ## Digits to lay out -/

/-- The digits without the zeros at their end; none for zero. -/
def significant (d : Decimal) : List Char :=
  ((Nat.toDigits 10 d.digits).reverse.dropWhile (· == '0')).reverse

/-- The power of ten that the first digit counts. -/
def exponentOfFirst (d : Decimal) : Int :=
  (Nat.toDigits 10 d.digits).length - 1 + d.exponent

end Decimal
end KeypadCalculator
