import KeypadCalculator.Number.Decimal

/-!
# Numerals

The number texts of the keypad are digits with at most one point, such as `5`, `0.25`, `5.` and
`.5`. A numeral of two or more whole digits does not begin with `0`, so that `05` is no way to
write five.
-/

namespace KeypadCalculator.Numeral

/-- The characters of numerals. -/
def isNumeralChar (c : Char) : Bool :=
  c.isDigit || c == '.'

/-- Whether the text begins with a zero and another digit. -/
def hasIdleZero : List Char → Bool
  | '0' :: c :: _ => c.isDigit
  | _ => false

/-- Whether a text of digits and points is a numeral. -/
def isNumeral (text : List Char) : Bool :=
  text.any Char.isDigit && decide (text.count '.' ≤ 1) && !hasIdleZero text

/-- The decimal that a numeral denotes: all its digits, the last one as many places down as digits
follow the point. -/
def toDecimal (text : List Char) : Decimal where
  digits := Nat.ofDigitChars 10 (text.filter Char.isDigit) 0
  exponent := -(((text.dropWhile (· != '.')).drop 1).length : Int)

/-- The double nearest to what the numeral denotes, or nothing when the text is no numeral. -/
def read? (text : List Char) : Option Float :=
  if isNumeral text then some (toDecimal text).toFloat else none

end KeypadCalculator.Numeral
