import KeypadCalculator.Number.Shortest

/-!
# Number formats

A number is written with its shortest digits, positionally (`0.05`, `1200`) when its magnitude lies
in a given range and in scientific form (`5e-8`, `1.2e+21`) outside it. `NumberFormat` holds what
such a format may decide, and the two formats of the calculator are values of it: `NumberFormat.result`
for what a user reads and `NumberFormat.record` for the log.
-/

namespace KeypadCalculator

/-- What a number format decides. -/
structure NumberFormat where
  /-- Magnitudes are written positionally from the double nearest to this decimal on. -/
  positionalFrom : Decimal
  /-- Magnitudes are written positionally below the double nearest to this decimal. -/
  positionalBelow : Decimal
  /-- What follows a whole number in positional form. -/
  wholeEnding : List Char
  /-- What stands before an exponent that is not negative. -/
  exponentSign : List Char
  /-- The text of zero. -/
  zero : List Char
  /-- Whether zero keeps its sign. -/
  signedZero : Bool

namespace NumberFormat

/-! ## Layout of digits -/

/-- The digits in positional form, the first of them counting `10 ^ exponent`. -/
def positional (format : NumberFormat) (digits : List Char) (exponent : Int) : List Char :=
  if exponent < 0 then
    '0' :: '.' :: (List.replicate ((-exponent).toNat - 1) '0' ++ digits)
  else
    let places := exponent.toNat + 1
    let whole := digits.take places ++ List.replicate (places - digits.length) '0'
    match digits.drop places with
    | [] => whole ++ format.wholeEnding
    | fraction => whole ++ '.' :: fraction

/-- The digits in scientific form, the first of them counting `10 ^ exponent`. -/
def scientific (format : NumberFormat) (digits : List Char) (exponent : Int) : List Char :=
  let significand := match digits with
    | first :: next :: rest => first :: '.' :: next :: rest
    | short => short
  let sign := if exponent < 0 then ['-'] else format.exponentSign
  significand ++ 'e' :: (sign ++ Nat.toDigits 10 exponent.natAbs)

/-- The text of a finite magnitude other than zero. -/
def magnitude (format : NumberFormat) (rank : Nat) : List Char :=
  let decimal := Decimal.shortest rank
  if format.positionalFrom.rank ≤ rank ∧ rank < format.positionalBelow.rank then
    format.positional decimal.significant decimal.exponentOfFirst
  else
    format.scientific decimal.significant decimal.exponentOfFirst

/-! ## Writing a number -/

/-- The text of a double. A NaN has no sign. -/
def write (format : NumberFormat) (x : Float) : List Char :=
  let withSign (text : List Char) := if Binary.negative x then '-' :: text else text
  if Binary.isNaN x then "NaN".toList
  else if Binary.rank x = 0 then
    if format.signedZero then withSign format.zero else format.zero
  else if Binary.isFinite x then withSign (format.magnitude (Binary.rank x))
  else withSign "inf".toList

/-! ## The formats of the calculator -/

/-- Results are positional from `1e-6` up to below `1e21`, as in `0.000001` and `1e+21`, and there
is one zero. -/
def result : NumberFormat where
  positionalFrom := ⟨1, -6⟩
  positionalBelow := ⟨1, 21⟩
  wholeEnding := []
  exponentSign := ['+']
  zero := ['0']
  signedZero := false

/-- Log records are positional from `1e-4` up to below `1e16`, always with a point, as in `18.0`,
`-0.0` and `1e16`. -/
def record : NumberFormat where
  positionalFrom := ⟨1, -4⟩
  positionalBelow := ⟨1, 16⟩
  wholeEnding := ['.', '0']
  exponentSign := []
  zero := ['0', '.', '0']
  signedZero := true

/-! ## Samples -/

-- the ends of the positional range
example : result.write 1e-6 = "0.000001".toList := by decide +kernel
example : result.write 9.999999999999997e-7 = "9.999999999999997e-7".toList := by decide +kernel
example : result.write 1e21 = "1e+21".toList := by decide +kernel
example : result.write (-999999999999999900000) = "-999999999999999900000".toList := by
  decide +kernel

-- the value lies halfway between `…312e-8` and `…313e-8`, and both read back
example : result.write 2.98023223876953125e-8 = "2.9802322387695313e-8".toList := by decide +kernel

example : record.write 18 = "18.0".toList := by decide +kernel
example : record.write (-0.0) = "-0.0".toList := by decide +kernel
example : record.write 1e16 = "1e16".toList := by decide +kernel

end NumberFormat
end KeypadCalculator
