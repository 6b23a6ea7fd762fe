/-!
# Doubles as ranked magnitudes

A double is a sign and a magnitude. The lower 63 bits of its word number the magnitudes in their
order, from zero at rank 0 to infinity at rank `2047 * 2 ^ 52`; the ranks above that are not
numbers. Every finite magnitude is a whole number of units, one unit being `2 ^ -1074`, so all exact
work on doubles (reading a decimal, writing the shortest one, taking a remainder) is done here on
natural numbers, and none of it depends on how a machine adds or divides.

* `rank`, `negative`: the two halves of a double; `ofRank` puts them together again;
* `units`: the exact value of a rank;
* `nearestRank`: the rank nearest to a quotient of natural numbers, ties to even.
-/

namespace KeypadCalculator.Binary

-- The powers below are those of the core library, also in a file that sees another `Pow Nat Nat`.
attribute [local instance (high)] instPowNat instNatPowNat

/-! ## The two halves of a double -/

/-- Whether the sign bit is set; it is set in `-0.0` too. -/
def negative (x : Float) : Bool :=
  decide (2 ^ (63 : Nat) ≤ x.toBits.toNat)

/-- The place of the magnitude of `x` among all magnitudes, with zero in place 0. -/
def rank (x : Float) : Nat :=
  x.toBits.toNat % 2 ^ (63 : Nat)

/-- The rank of infinity. Smaller ranks are finite, larger ones are not numbers. -/
def infinity : Nat :=
  2047 * 2 ^ (52 : Nat)

/-- Neither infinite nor a NaN. -/
def isFinite (x : Float) : Bool :=
  decide (rank x < infinity)

/-- Not a number. -/
def isNaN (x : Float) : Bool :=
  decide (infinity < rank x)

/-- The double with the given sign and rank. -/
def ofRank (negative : Bool) (rank : Nat) : Float :=
  Float.ofBits (UInt64.ofNat (if negative then 2 ^ (63 : Nat) + rank else rank))

/-- A double that is no number. -/
def nan : Float :=
  ofRank false (infinity + 2 ^ (51 : Nat))

/-! ## Exact values -/

/--
The value of a rank in units of `2 ^ -1074`. The first two blocks of `2 ^ 52` ranks are one unit
apart, and each block after them is twice as coarse as the one before. Infinity comes out larger
than every finite value.
-/
def units (rank : Nat) : Nat :=
  let doublings := rank / 2 ^ (52 : Nat) - 1
  (rank - doublings * 2 ^ (52 : Nat)) * 2 ^ doublings

/-! ## Rounding -/

/-- The whole number nearest to `num / den`; a half goes to the even neighbour. -/
def roundHalfEven (num den : Nat) : Nat :=
  let quotient := num / den
  let twice := 2 * (num % den)
  if twice < den ∨ (twice = den ∧ quotient % 2 = 0) then quotient else quotient + 1

/--
The rank whose value is nearest to `num / den`, a tie going to the even rank; infinity from half a
step above the largest finite value on. The quotient is measured in units to find how coarse the
ranks around it are. Rounding up may leave the block, and then yields the first rank of the next
one, as it should.
-/
def nearestRank (num den : Nat) : Nat :=
  let scaled := num * 2 ^ (1074 : Nat)
  let doublings := (scaled / den).log2 - 52
  min (doublings * 2 ^ (52 : Nat) + roundHalfEven scaled (den * 2 ^ doublings)) infinity

/-! ## Remainder -/

/--
The remainder of `x` by `y` when the quotient is cut off towards zero: it has the sign of `x` and is
smaller than `y` in magnitude. It is exact, for the remainder of two whole numbers of units is again
a magnitude. There is none when `x` is not finite, or `y` is zero or a NaN; an infinite `y` leaves
`x` as it is.
-/
def remainder (x y : Float) : Float :=
  if isFinite x = false ∨ isNaN y ∨ rank y = 0 then nan
  else ofRank (negative x) (nearestRank (units (rank x) % units (rank y)) (2 ^ (1074 : Nat)))

example : remainder (-7) 3 = -1 := by decide +kernel
example : remainder 5.5 (1 / 0) = 5.5 := by decide +kernel

end KeypadCalculator.Binary
