import KeypadCalculator.Proofs.Keypad.Appending

/-!
# One operator after another

Of operators that are typed one after another the last one counts (`last_operator_wins`). Each is
put behind the text, which loses its last character before if that is an operator (`press_symbol`).
So what it leaves is the text without an operator at its end, and the operator; and the next one
finds the same text without an operator at its end (`withoutOperator_concat_symbol`).

Nothing else matters: a result is gone on from like any other text, and no operator is refused,
since only an empty line refuses one.
-/

namespace KeypadCalculator

namespace Entry

/-- The text without the operator at its end, if it ends with one. -/
def withoutOperator (text : List Char) : List Char :=
  if text.getLast?.any Operator.isSymbol then text.dropLast else text

theorem withoutOperator_concat_symbol (text : List Char) (op : Operator) :
    withoutOperator (text ++ [op.symbol]) = text := by
  rw [withoutOperator, List.getLast?_concat, Option.any_some, if_pos op.isSymbol_symbol,
    List.dropLast_concat]

/-- An operator is put behind the text as it is, whether that is a result or not. -/
theorem append_symbol (e : Entry) (op : Operator) :
    e.append op.symbol = ({ text := e.text ++ [op.symbol] }, none) := by
  have hdigit : op.symbol.isDigit = false := by cases op <;> rfl
  have hpoint : op.symbol ≠ '.' := by cases op <;> decide
  have hzero : op.symbol ≠ '0' := by cases op <;> decide
  have hstarts : ¬ Starts e op.symbol := by simp [Starts, hdigit, hpoint]
  have hrefuses : ¬ Refuses e op.symbol := by simp [Refuses, hpoint, hzero]
  rw [append_of_not_refuses hrefuses, if_neg hstarts, extended, if_neg (fun h => hpoint h.1)]

/-- **An operator takes the place of an operator, or is put behind the text**, if there is any. -/
theorem type_symbol {e : Entry} (he : e.text ≠ []) (op : Operator) :
    e.type op.symbol = ({ text := withoutOperator e.text ++ [op.symbol] }, none) := by
  have hstart : ¬ (e.text.isEmpty && op.symbol != '-') = true := by simp [he]
  rw [type, if_pos op.isSymbol_symbol, if_neg hstart]
  by_cases hend : e.endsWithOperator = true
  · have hkept : withoutOperator e.text = e.text.dropLast := if_pos hend
    rw [if_pos hend, replaceOperator, if_pos hend, hkept]
  · have hkept : withoutOperator e.text = e.text := if_neg hend
    rw [if_neg hend, append_symbol, hkept]

end Entry

namespace Panel

open Entry

variable {p : Panel}

theorem press_symbol (hp : p.entry.text ≠ []) (op : Operator) :
    p.press (.char op.symbol)
      = showing { text := withoutOperator p.entry.text ++ [op.symbol] } := by
  rw [press, type_symbol hp]

/-- An operator undoes the one before it. -/
theorem press_symbol_press_symbol (hp : p.entry.text ≠ []) (first op : Operator) :
    (p.press (.char first.symbol)).press (.char op.symbol) = p.press (.char op.symbol) := by
  have hfirst : (p.press (.char first.symbol)).entry.text
      = withoutOperator p.entry.text ++ [first.symbol] := by
    rw [press_symbol hp]
    rfl
  rw [press_symbol (by simp [hfirst]), hfirst, withoutOperator_concat_symbol, press_symbol hp]

/-- An operator undoes all those before it. -/
theorem run_symbols (hp : p.entry.text ≠ []) (before : List Operator) (op : Operator) :
    p.run ((before ++ [op]).map fun o => .char o.symbol) = p.press (.char op.symbol) := by
  induction before using List.reverseRecOn generalizing op with
  | nil => rfl
  | append_singleton before last ih =>
    rw [List.map_append, List.map_singleton, run_concat, ih last, press_symbol_press_symbol hp]

/-- **Of several operators the last one counts.** On every panel whose line is not empty, whatever
its text and whether it is a result, operators that are pressed one after another come to the same
as the last of them alone. The line is then no result, its text is the old one, less its last
character if that was an operator, and the operator behind it; and the display shows it. -/
theorem last_operator_wins (p : Panel) (hp : p.entry.text ≠ []) (before : List Operator)
    (op : Operator) :
    let text := p.entry.text
    let kept := if text.getLast?.any (· ∈ ['+', '-', '*', '/', '%']) then text.dropLast else text
    p.run ((before ++ [op]).map fun o => .char o.symbol) = p.press (.char op.symbol) ∧
    p.press (.char op.symbol) = {
      entry := { text := kept ++ [op.symbol], isResult := false }
      display := .text (kept ++ [op.symbol]) } := by
  intro text kept
  have hsymbols : Operator.isSymbol = fun c => decide (c ∈ ['+', '-', '*', '/', '%']) := by
    funext c
    rw [Bool.eq_iff_iff, Operator.isSymbol_iff_mem, decide_eq_true_iff]
  have hkept : withoutOperator text = kept := by
    rw [withoutOperator, hsymbols]
  refine ⟨run_symbols hp before op, ?_⟩
  rw [press_symbol hp, ← hkept]
  rfl

/-- The sign of an exponent, left at the end of a result by a backspace, is an operator like any
other. -/
theorem last_operator_wins_over_exponent_sign :
    let p := run {} ("1/10000000".toList.map Press.char ++ [.equals, .back])
    p.entry.text ≠ [] ∧
    p.run [.char '+', .char '-', .char '*'] = p.press (.char '*') ∧
    p.press (.char '*') = showing { text := "1e*".toList } := by
  intro p
  have hp : p.entry.text ≠ [] := by decide +kernel
  obtain ⟨hrun, hpress⟩ := last_operator_wins p hp [.add, .sub] .mul
  exact ⟨hp, hrun, hpress.trans (by decide +kernel)⟩

end Panel
end KeypadCalculator
