/-!
# Blank characters

The characters with the property White_Space. They separate words and tokens and mean nothing else.
-/

namespace KeypadCalculator.Text

/-- The first and last code of each run of blank characters. -/
def blankRanges : List (Nat × Nat) :=
  [(0x9, 0xD), (0x20, 0x20), (0x85, 0x85), (0xA0, 0xA0), (0x1680, 0x1680), (0x2000, 0x200A),
   (0x2028, 0x2029), (0x202F, 0x202F), (0x205F, 0x205F), (0x3000, 0x3000)]

/-- Whether the character is blank. -/
def isBlank (c : Char) : Bool :=
  blankRanges.any fun (first, last) => decide (first ≤ c.toNat) && decide (c.toNat ≤ last)

-- there are 25 of them
example : (blankRanges.map fun (first, last) => last + 1 - first).sum = 25 := by decide

end KeypadCalculator.Text
