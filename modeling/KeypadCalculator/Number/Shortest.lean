import KeypadCalculator.Number.Decimal

/-!
# The shortest decimal that reads back

Among the decimals that round to a given double some have the fewest digits, and of those one is
nearest to it. `Decimal.shortest` finds that one by exact search: for 1, 2, 3, … digits it looks at
the two neighbours of the value on the grid of decimals of that many digits. A grid that holds any
decimal that rounds to the value also has such a neighbour, because rounding keeps order.
-/

namespace KeypadCalculator

-- The powers below are those of the core library, also in a file that sees another `Pow Nat Nat`.
attribute [local instance (high)] instPowNat instNatPowNat

/-- The value of a rank in units of `10 ^ -1074`; it is always a whole number of them. -/
def Binary.fineUnits (rank : Nat) : Nat :=
  Binary.units rank * 5 ^ (1074 : Nat)

namespace Decimal

/--
The multiple of `step` next to the value of `rank` that rounds to it, everything in units of
`10 ^ -1074`. When both neighbours do, the nearer one, and halfway between them the upper one.
-/
def neighbour? (rank step : Nat) : Option Nat :=
  let exact := Binary.fineUnits rank
  let below := exact / step
  let readsBack (n : Nat) : Bool := Binary.nearestRank (n * step) (10 ^ (1074 : Nat)) == rank
  if readsBack below && !(readsBack (below + 1) && decide (step ≤ 2 * (exact % step))) then
    some below
  else if readsBack (below + 1) then
    some (below + 1)
  else
    none

/--
The decimal of fewest digits that rounds to `rank`, and of those the nearest to it. The exact value
is a decimal of `width` digits, so the search ends there at the latest; a search that ended
without a hit would leave that exact value.
-/
def shortest (rank : Nat) : Decimal :=
  let exact := Binary.fineUnits rank
  let width := (Nat.toDigits 10 exact).length
  let hit := (List.range width).findSome? fun kept =>
    let zeros := width - (kept + 1)
    (neighbour? rank (10 ^ zeros)).map fun n => Decimal.mk n (zeros - 1074)
  hit.getD (Decimal.mk exact (-1074))

end Decimal
end KeypadCalculator
