import KeypadCalculator.Number.Binary

/-!
# Operators

The five binary operators of the calculator, their symbols, how tightly they bind and what they
compute.
-/

namespace KeypadCalculator

/-- A binary operator on doubles. -/
inductive Operator where
  | add
  | sub
  | mul
  | div
  | rem
  deriving DecidableEq, Repr

namespace Operator

/-- The character of the operator. -/
def symbol : Operator → Char
  | add => '+'
  | sub => '-'
  | mul => '*'
  | div => '/'
  | rem => '%'

/-- The operator that a character stands for. -/
def ofChar? : Char → Option Operator
  | '+' => some add
  | '-' => some sub
  | '*' => some mul
  | '/' => some div
  | '%' => some rem
  | _ => none

/-- Whether a character is the symbol of an operator. -/
def isSymbol (c : Char) : Bool :=
  (ofChar? c).isSome

/-- How tightly the operator binds; products bind tighter than sums. -/
def precedence : Operator → Nat
  | add | sub => 10
  | mul | div | rem => 20

/-- The value of the operator at two operands. -/
def apply : Operator → Float → Float → Float
  | add, l, r => l + r
  | sub, l, r => l - r
  | mul, l, r => l * r
  | div, l, r => l / r
  | rem, l, r => Binary.remainder l r

/-- Every operator is read back from its symbol. -/
@[simp] theorem ofChar?_symbol (op : Operator) : ofChar? op.symbol = some op := by
  cases op <;> rfl

@[simp] theorem isSymbol_symbol (op : Operator) : isSymbol op.symbol = true := by
  rw [isSymbol, ofChar?_symbol, Option.isSome_some]

/-- A character stands for an operator exactly when it is its symbol. -/
theorem ofChar?_eq_some_iff {c : Char} {op : Operator} : ofChar? c = some op ↔ c = op.symbol := by
  constructor
  · intro h
    unfold ofChar? at h
    split at h <;> first | (cases h; rfl) | cases h
  · rintro rfl
    exact ofChar?_symbol op

/-- The symbols are these five characters. -/
theorem isSymbol_iff_mem {c : Char} : isSymbol c = true ↔ c ∈ ['+', '-', '*', '/', '%'] := by
  rw [isSymbol, Option.isSome_iff_exists]
  simp only [ofChar?_eq_some_iff]
  constructor
  · intro h
    obtain ⟨op, rfl⟩ := h
    cases op <;> decide
  · intro h
    simp only [List.mem_cons, List.not_mem_nil, or_false] at h
    rcases h with rfl | rfl | rfl | rfl | rfl
    · exact ⟨add, rfl⟩
    · exact ⟨sub, rfl⟩
    · exact ⟨mul, rfl⟩
    · exact ⟨div, rfl⟩
    · exact ⟨rem, rfl⟩

end Operator
end KeypadCalculator
