import KeypadCalculator.Proofs.Evaluation.Errors
import KeypadCalculator.Proofs.Evaluation.Numerals
import KeypadCalculator.Proofs.Keypad.Shape

/-!
# Going on from a result

A result stays in the line as text. With an operator and a numeral typed behind it, an equals
evaluates the text anew, and shows what the operator makes of the value itself and the number, if
the text of the result is positional (`continues_from_result`). A result with an exponent cannot be
gone on from, as `e` is no character of an expression (`tiny_result_is_lost`).
-/

namespace KeypadCalculator

open Binary (isFinite unsignZero)
open Evaluation (evaluate value)
open NumberFormat (result signText)
open Numeral (IsPlain IsWhole toDecimal)

variable {text more numeral : List Char} {c : Char} {v x : Float} {presses : List Press}

namespace Entry

/-! ## Typing what fits -/

theorem base_of_not_isResult {e : Entry} (h : e.isResult = false) : e.base c = e := by
  rw [base, h, Bool.false_and, if_neg Bool.false_ne_true]

theorem base_of_isSymbol (e : Entry) (h : Operator.isSymbol c = true) : e.base c = e := by
  rcases base_cases e c with hbase | ⟨-, hc⟩
  · exact hbase
  · rw [h] at hc
    cases hc

/-- A character that fits is put at the end of the line as it is. -/
theorem type_of_fits {e : Entry} (hbase : e.base c = e) (hfits : Fits e.text c)
    (hfirst : e.text = [] → Operator.isSymbol c = true → c = '-') :
    (e.type c).1 = { text := e.text ++ [c] } := by
  have happend : (e.append c).1 = { text := e.text ++ [c] } := by
    have hrejection : rejection? e.text c = none :=
      rejection?_eq_none_iff.2 ⟨fun hc => (hfits.point hc).1, hfits.zero⟩
    have hextended : extended e.text c = e.text ++ [c] :=
      if_neg fun h => (hfits.point h.1).2 h.2
    unfold append
    dsimp only
    rw [hbase, hrejection, hextended]
  unfold type
  by_cases hc : Operator.isSymbol c = true
  · rw [if_pos hc]
    have hstart : ¬ (e.text.isEmpty && c != '-') = true := by
      intro h
      rw [Bool.and_eq_true, List.isEmpty_iff, bne_iff_ne] at h
      exact h.2 (hfirst h.1 hc)
    have hend : ¬ e.endsWithOperator = true := by
      rw [endsWithOperator_iff]
      rintro ⟨kept, op, htext, hop⟩
      rw [hfits.apart hc op (by rw [htext, List.getLast?_concat]; rfl)] at hop
      cases hop
    rw [if_neg hstart, if_neg hend, happend]
  · rw [if_neg hc, happend]

/-! ## The end of a result -/

/-- A result ends with a digit or a point. -/
theorem exists_write_eq_concat (hfinite : isFinite x = true) : ∃ before last,
    result.write x = before ++ [last] ∧ Numeral.isNumeralChar last = true := by
  have hplain {before numeral : List Char} (h : IsPlain numeral) : ∃ first last,
      before ++ numeral = first ++ [last] ∧ Numeral.isNumeralChar last = true := by
    obtain ⟨c, hc, -⟩ := h.head
    cases numeral using List.reverseRecOn with
    | nil => cases hc
    | append_singleton first last =>
      exact ⟨before ++ first, last, (List.append_assoc ..).symm, h.characters last (by simp)⟩
  obtain ⟨negated, numeral, ending, htext, hnumeral, hending⟩ :=
    NumberFormat.exists_write_eq hfinite
  rw [htext]
  cases hending with
  | none =>
    rw [List.append_nil]
    exact hplain hnumeral
  | @exponent sign digits hsign hdigits =>
    have hsplit : signText negated ++ (numeral ++ 'e' :: sign :: digits)
        = (signText negated ++ (numeral ++ ['e', sign])) ++ digits := by simp
    rw [hsplit]
    exact hplain hdigits.isPlain

/-- An operator fits behind a result. -/
theorem fits_write (hfinite : isFinite x = true) (op : Operator) :
    Fits (result.write x) op.symbol := by
  obtain ⟨before, last, htext, hlast⟩ := exists_write_eq_concat hfinite
  have hbreak := isBreak_of_isNumeralChar hlast
  refine ⟨fun _ d hd => ?_, fun hpoint => ?_, fun hzero => ?_⟩
  · rw [htext, List.getLast?_concat, Option.mem_some_iff] at hd
    subst hd
    rw [isBreak, Bool.or_eq_false_iff, Bool.or_eq_false_iff] at hbreak
    exact hbreak.1.1
  · cases op <;> cases hpoint
  · cases op <;> cases hzero

end Entry

namespace Panel

open Entry

/-! ## Typing behind a result -/

/-- Characters that keep the shape of the line are put behind it one by one. -/
theorem run_chars {p : Panel} (hresult : p.entry.isResult = false)
    (hfirst : p.entry.text = [] → ∀ c ∈ more.head?, Operator.isSymbol c = true → c = '-')
    (hshape : InShape (p.entry.text ++ more)) :
    (p.run (more.map .char)).entry = { text := p.entry.text ++ more } := by
  induction more using List.reverseRecOn with
  | nil =>
    show p.entry = { text := p.entry.text ++ [] }
    rw [List.append_nil, ← hresult]
  | append_singleton more c ih =>
    rw [← List.append_assoc, inShape_concat_iff] at hshape
    have hbefore := ih (fun hnil d hd => hfirst hnil d (by simp [Option.mem_def.1 hd])) hshape.1
    rw [List.map_append, List.map_singleton, run_concat]
    show ((p.run (more.map .char)).entry.type c).1 = _
    rw [hbefore, type_of_fits (base_of_not_isResult rfl) hshape.2, List.append_assoc]
    intro hnil
    obtain ⟨htext, rfl⟩ := List.append_eq_nil_iff.1 hnil
    exact hfirst htext c rfl

/-- Some presses, and an equals, an operator and a numeral after them. -/
def continued (presses : List Press) (op : Operator) (numeral : List Char) : List Press :=
  presses ++ [Press.equals, Press.char op.symbol] ++ numeral.map Press.char

/-- An operator behind a result is put there as it is. -/
theorem entry_press_operator_of_result {p : Panel} (hv : evaluate p.expression = .ok v)
    (op : Operator) : ((p.press .equals).press (.char op.symbol)).entry
      = { text := result.write v ++ [op.symbol] } := by
  have hfinite := (Evaluation.evaluate_eq_ok_iff.1 hv).2
  have hequals : (p.press .equals).entry = .ofResult (result.write v) := by
    rw [press, equals, hv]
    rfl
  show ((p.press .equals).entry.type op.symbol).1 = _
  rw [hequals]
  apply type_of_fits (base_of_isSymbol _ op.isSymbol_symbol) (fits_write hfinite op)
  intro hnil
  obtain ⟨before, last, htext, -⟩ := exists_write_eq_concat hfinite
  exact absurd (htext.symm.trans hnil) (by simp)

/-- What is typed behind a result is evaluated together with it. -/
theorem expression_continued (hv : evaluate (Panel.run {} presses).expression = .ok v)
    (op : Operator) (hnumeral : IsPlain numeral) :
    (Panel.run {} (continued presses op numeral)).expression
      = result.write v ++ op.symbol :: numeral := by
  have hfinite := (Evaluation.evaluate_eq_ok_iff.1 hv).2
  have hentry := entry_press_operator_of_result hv op
  have hshape : InShape (result.write v ++ [op.symbol] ++ numeral) := by
    have hbreak : isBreak op.symbol = true := by
      rw [isBreak, op.isSymbol_symbol, Bool.true_or, Bool.true_or]
    have hbefore := inShape_concat_iff.2 ⟨inShape_write hfinite, fits_write hfinite op⟩
    exact hbefore.append_plain (trailingSegment_concat_break hbreak) hnumeral
  have hrun : Panel.run {} (continued presses op numeral)
      = (((Panel.run {} presses).press .equals).press (.char op.symbol)).run
          (numeral.map .char) := by
    rw [continued, run, List.foldl_append, List.foldl_append]
    rfl
  generalize ((Panel.run {} presses).press .equals).press (.char op.symbol) = p at hentry hrun
  have htext : (p.run (numeral.map .char)).entry.text = result.write v ++ op.symbol :: numeral := by
    rw [run_chars (by rw [hentry]) (by simp [hentry]) (by rwa [hentry]), hentry, List.append_assoc]
    rfl
  rw [hrun, expression, htext, if_neg (by simp)]

/-! ## The second equals -/

theorem display_equals (p : Panel) : p.equals.display = match evaluate p.expression with
    | .ok v => .text (result.write v)
    | .error _ => .error := by
  unfold equals
  cases evaluate p.expression with
  | ok v => rfl
  | error e => rfl

/-- What is worth the same up to the sign of a zero is displayed alike. -/
theorem display_equals_of_value {p : Panel} (h : value p.expression = .ok x) :
    p.equals.display = if isFinite x = true then .text (result.write x) else .error := by
  rw [display_equals, Evaluation.evaluate, h]
  dsimp only
  by_cases hx : isFinite x = true
  · rw [if_pos hx, if_pos hx]
  · rw [if_neg hx, if_neg hx]

/-- A positional result is read back, so that the operator gets the value itself. -/
theorem value_continued (hfinite : isFinite v = true) (hv : result.IsPositional v) (op : Operator)
    (hnumeral : IsPlain numeral)
    (hlength : (result.write v ++ op.symbol :: numeral).length ≤ 120) :
    value (result.write v ++ op.symbol :: numeral)
      = .ok (op.apply (unsignZero v) (toDecimal numeral).toFloat) := by
  obtain ⟨negated, left, htext, hleft, hread⟩ :=
    NumberFormat.exists_write_eq_of_isPositional hfinite hv
  rw [htext, List.append_assoc] at hlength ⊢
  rw [Evaluation.value_binary hleft hnumeral negated op hlength, hread]

/-- **A result can be gone on from if it is positional.** When `v` is the value of an equals, an
operator, a plain numeral and another equals after it display what the operator makes of `v` and the
number, and an error if that is not finite; or an error anyway if `v` is not positional. -/
theorem continues_from_result (presses : List Press) {v : Float}
    (hv : evaluate (Panel.run {} presses).expression = .ok v) (op : Operator) {numeral : List Char}
    (hnumeral : IsPlain numeral)
    (hlength : (Panel.run {} (continued presses op numeral)).entry.text.length ≤ 120) :
    let w := op.apply v (toDecimal numeral).toFloat
    (Panel.run {} (continued presses op numeral ++ [Press.equals])).display =
      if result.IsPositional v ∧ isFinite w = true then .text (result.write w) else .error := by
  intro w
  have hfinite := (Evaluation.evaluate_eq_ok_iff.1 hv).2
  have hexpression := expression_continued hv op hnumeral
  rw [run_concat]
  show (Panel.run {} (continued presses op numeral)).equals.display = _
  generalize Panel.run {} (continued presses op numeral) = p at hlength hexpression
  by_cases hpositional : result.IsPositional v
  · have hlength' : (result.write v ++ op.symbol :: numeral).length ≤ 120 := by
      rcases p.expression_cases with ⟨-, h⟩ | ⟨-, h⟩
      · rw [← hexpression, h]
        decide
      · rwa [← hexpression, h]
    have hvalue := value_continued hfinite hpositional op hnumeral hlength'
    rw [← hexpression] at hvalue
    -- the two operations differ by the sign of a zero at most, which does not show
    have hsame : unsignZero (op.apply (unsignZero v) (toDecimal numeral).toFloat) = unsignZero w :=
      op.unsignZero_apply_unsignZero v (toDecimal numeral).toFloat
    rw [display_equals_of_value hvalue, ← Binary.isFinite_unsignZero,
      ← NumberFormat.write_unsignZero rfl, hsame, Binary.isFinite_unsignZero,
      NumberFormat.write_unsignZero rfl]
    simp only [hpositional, true_and]
  · have hmem : 'e' ∈ p.expression := by
      rw [hexpression, List.mem_append]
      exact .inl ((NumberFormat.e_mem_write_iff hfinite).2 hpositional)
    rw [display_equals, Evaluation.evaluate_of_e_mem hmem, if_neg fun h => hpositional h.1]

/-- Six times seven, divided by two. -/
theorem continues_from_product :
    evaluate (Panel.run {} (Press.ofWord "6*7".toList)).expression = .ok 42 ∧
    IsPlain ['2'] ∧
    (Panel.run {} (continued (Press.ofWord "6*7".toList) .div ['2'])).entry.text.length ≤ 120 ∧
    (Panel.run {} (continued (Press.ofWord "6*7".toList) .div ['2'] ++ [Press.equals])).display
      = .text "21".toList := by
  have hv : evaluate (Panel.run {} (Press.ofWord "6*7".toList)).expression = .ok 42 := by
    decide +kernel
  have htwo : IsPlain ['2'] := IsWhole.isPlain ⟨by simp, by simp, .inr (by simp)⟩
  have hlength : (Panel.run {} (continued (Press.ofWord "6*7".toList) .div ['2'])).entry.text.length
      ≤ 120 := by
    decide +kernel
  refine ⟨hv, htwo, hlength, (continues_from_result _ hv .div htwo hlength).trans ?_⟩
  decide +kernel

/-- One ten-millionth is shown as `1e-7`, and adding one to it is an error although the sum is
finite. -/
theorem tiny_result_is_lost :
    evaluate (Panel.run {} (Press.ofWord "1/10000000".toList)).expression = .ok 1e-7 ∧
    IsPlain ['1'] ∧
    (Panel.run {} (continued (Press.ofWord "1/10000000".toList) .add ['1'])).entry.text.length
      ≤ 120 ∧
    isFinite (Operator.add.apply 1e-7 (toDecimal ['1']).toFloat) = true ∧
    (Panel.run {} (continued (Press.ofWord "1/10000000".toList) .add ['1'] ++
      [Press.equals])).display = .error := by
  refine ⟨?_, IsWhole.isPlain ⟨by simp, by simp, .inr (by simp)⟩, ?_, ?_, ?_⟩
  · decide +kernel
  · decide +kernel
  · decide +kernel
  · decide +kernel

end Panel
end KeypadCalculator
