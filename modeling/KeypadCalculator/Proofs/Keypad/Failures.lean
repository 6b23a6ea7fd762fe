import KeypadCalculator.Proofs.Evaluation.Errors
import KeypadCalculator.Proofs.Keypad.Shape

/-!
# What an equals can fail with on a keypad

Keys and buttons type few characters, and the line keeps its shape, so that few mistakes are left
for an equals to report (`errors_of_keypad`). The line consists of characters of the keypad, except
for the `e` of a result with an exponent, which has stood in the line ever since it was shown
(`exists_shown_exponent`). Between the operators and parentheses of the keypad are runs of digits
and points, so the shape of the segments is that of the runs; all that it leaves open is a zero with
another digit behind it (`InShape.exists_idleZero`).
-/

namespace KeypadCalculator

open Entry (InShape isBreak)
open Evaluation (evaluate isAllowed)
open NumberFormat (result)
open Numeral (isNumeralChar IsPlain IsWhole)

variable {text run : List Char} {c : Char} {presses : List Press}

/-! ## The characters of the keypad -/

namespace Press

/-- A key or a button has the press. -/
def OnKeypad (k : Press) : Prop :=
  (∃ name, ofKey? name = some k) ∨ (∃ name, ofAction? name = some k) ∨
    ∃ label, ofLabel? label = some k

theorem isKeypadChar_of_ofChar? {name : String} (h : ofChar? name = some (.char c)) :
    isKeypadChar c = true := by
  unfold ofChar? at h
  split at h
  · split at h
    · rename_i hc
      obtain rfl := Press.char.inj (Option.some.inj h)
      exact hc
    · cases h
  · cases h

/-- What keys and buttons type are the characters of the keypad. -/
theorem OnKeypad.isKeypadChar (h : OnKeypad (.char c)) : Press.isKeypadChar c = true := by
  rcases h with ⟨name, h⟩ | ⟨name, h⟩ | ⟨label, h⟩
  · unfold ofKey? at h
    split at h
    · cases h
    split at h
    · cases h
    split at h
    · cases h
    · exact isKeypadChar_of_ofChar? h
  · -- no action types a character
    unfold ofAction? at h
    split at h
    · cases h
    split at h
    · cases h
    split at h
    · cases h
    · cases h
  · unfold ofLabel? at h
    have hsign {sign : Char} (hc : Press.isKeypadChar sign = true)
        (h : some (Press.char sign) = some (.char c)) : Press.isKeypadChar c = true := by
      obtain rfl := Press.char.inj (Option.some.inj h)
      exact hc
    split at h
    · exact hsign rfl h
    split at h
    · exact hsign rfl h
    split at h
    · exact hsign rfl h
    · exact isKeypadChar_of_ofChar? h

theorem onKeypad_of_ofName? {k : Press} {name : String} (h : ofName? name = some k) :
    OnKeypad k := by
  rcases Option.or_eq_some_iff.1 h with h | ⟨-, h⟩
  · exact .inl ⟨name, h⟩
  · rcases Option.or_eq_some_iff.1 h with h | ⟨-, h⟩
    · exact .inr (.inl ⟨name, h⟩)
    · exact .inr (.inr ⟨name, h⟩)

/-- Words press nothing that keys and buttons do not press. -/
theorem onKeypad_of_mem_ofWord {k : Press} {word : List Char} (h : k ∈ ofWord word) :
    OnKeypad k := by
  unfold ofWord at h
  split at h
  · rename_i press hpress
    obtain rfl := List.mem_singleton.1 h
    exact onKeypad_of_ofName? hpress
  · obtain ⟨c, -, hc⟩ := List.mem_filterMap.1 h
    exact onKeypad_of_ofName? hc

theorem isKeypadChar_of_isNumeralChar (h : isNumeralChar c = true) : isKeypadChar c = true := by
  rw [isNumeralChar, Bool.or_eq_true] at h
  rcases h with h | h
  · simp [isKeypadChar, h]
  · simp [isKeypadChar, h]

/-- Expressions may have the characters of the keypad. -/
theorem isAllowed_of_isKeypadChar (h : isKeypadChar c = true) : isAllowed c = true := by
  simp only [isKeypadChar, Bool.or_eq_true] at h
  simp only [isAllowed, isNumeralChar, Bool.or_eq_true]
  tauto

/-- A character of the keypad belongs to a numeral or ends it. -/
theorem isNumeralChar_eq_not_isBreak (h : isKeypadChar c = true) :
    isNumeralChar c = !isBreak c := by
  by_cases hn : isNumeralChar c = true
  · rw [hn, Entry.isBreak_of_isNumeralChar hn]
    rfl
  · have hbreak : isBreak c = true := by
      simp only [isKeypadChar, Bool.or_eq_true] at h
      simp only [isNumeralChar, Bool.or_eq_true] at hn
      simp only [isBreak, Bool.or_eq_true]
      tauto
    rw [hbreak, Bool.eq_false_iff.2 hn]
    rfl

end Press

open Press (OnKeypad isKeypadChar)

namespace Entry

/-! ## The characters of a result -/

theorem isKeypadChar_or_e_of_mem_write {x : Float} (hfinite : Binary.isFinite x = true)
    (hc : c ∈ result.write x) : isKeypadChar c = true ∨ c = 'e' := by
  have hplain {numeral : List Char} (hnumeral : IsPlain numeral) (h : c ∈ numeral) :
      isKeypadChar c = true :=
    Press.isKeypadChar_of_isNumeralChar (hnumeral.characters c h)
  have hsign {sign : Char} (h : sign ∈ ['+', '-']) : isKeypadChar sign = true := by
    simp only [List.mem_cons, List.not_mem_nil, or_false] at h
    rcases h with rfl | rfl <;> rfl
  obtain ⟨negated, numeral, ending, htext, hnumeral, hending⟩ :=
    NumberFormat.exists_write_eq hfinite
  rw [htext, List.mem_append, List.mem_append] at hc
  rcases hc with hc | hc | hc
  · left
    cases negated with
    | false => cases hc
    | true =>
      rw [List.mem_singleton.1 hc]
      rfl
  · exact .inl (hplain hnumeral hc)
  · cases hending with
    | none => cases hc
    | exponent hmem hdigits =>
      rw [List.mem_cons, List.mem_cons] at hc
      rcases hc with rfl | rfl | hc
      · exact .inr rfl
      · exact .inl (hsign hmem)
      · exact .inl (hplain hdigits.isPlain hc)

/-! ## What the shape of a text keeps out -/

/-- No two scaling signs stand next to each other. -/
theorem InShape.not_hasScalingRun (h : InShape text) : ¬ Evaluation.hasScalingRun text = true := by
  intro hrun
  obtain ⟨a, ha, b, hb, hab⟩ := Evaluation.hasScalingRun_eq_true_iff.1 hrun
  have hsymbol {c : Char} (hc : c ∈ ['*', '/']) : Operator.isSymbol c = true := by
    simp only [List.mem_cons, List.not_mem_nil, or_false] at hc
    rcases hc with rfl | rfl <;> rfl
  exact h.apart a b hab ⟨hsymbol ha, hsymbol hb⟩

/-- No operator stands next to itself. -/
theorem InShape.not_doubled_infix (h : InShape text) (op : Operator) :
    ¬ [op.symbol, op.symbol] <:+: text :=
  fun hpair => h.apart _ _ hpair ⟨op.isSymbol_symbol, op.isSymbol_symbol⟩

/-- What the shape of a line does not keep from being typed is a zero before another digit. -/
theorem InShape.exists_idleZero (hshape : InShape text) (hchars : ∀ c ∈ text, isKeypadChar c = true)
    (hmem : run ∈ Lexeme.numeralRuns text) (hbad : Numeral.isNumeral run = false) :
    run.count '.' ≤ 1 ∧ ∃ d rest, run = '0' :: d :: rest ∧ d.isDigit = true ∧ d ≠ '0' := by
  have hsegment : run ∈ text.splitOnP isBreak := by
    have hsplit : text.splitOnP (fun c => !isNumeralChar c) = text.splitOnP isBreak :=
      splitOnP_congr fun c hc => by
        rw [Press.isNumeralChar_eq_not_isBreak (hchars c hc), Bool.not_not]
    rw [← hsplit]
    exact List.mem_of_mem_filter hmem
  obtain ⟨hpoints, hhead, hzeros⟩ := hshape.segments run hsegment
  obtain ⟨hne, hnumeral⟩ := Lexeme.numeralChars_of_mem_numeralRuns hmem
  -- the run has a digit, as its first character is not the point
  have hdigit : run.any Char.isDigit = true := by
    obtain ⟨first, rest, rfl⟩ := List.exists_cons_of_ne_nil hne
    have hfirst := hnumeral first (List.mem_cons_self ..)
    rw [isNumeralChar, Bool.or_eq_true, beq_iff_eq] at hfirst
    rcases hfirst with hfirst | rfl
    · rw [List.any_cons, hfirst, Bool.true_or]
    · exact absurd rfl hhead
  have hidle : Numeral.hasIdleZero run = true := by
    rw [Numeral.isNumeral, hdigit, decide_eq_true hpoints] at hbad
    simpa using hbad
  obtain ⟨d, rest, rfl, hd⟩ := Numeral.hasIdleZero_eq_true_iff.1 hidle
  refine ⟨hpoints, d, rest, rfl, hd, ?_⟩
  rintro rfl
  exact hzeros (List.prefix_append ['0', '0'] rest)

end Entry

namespace Panel

/-! ## The characters of the line -/

/-- The line of a keypad has characters of the keypad, and `e`. -/
theorem isKeypadChar_or_e_of_mem_text (h : ∀ k ∈ presses, OnKeypad k) :
    ∀ c ∈ (Panel.run {} presses).entry.text, isKeypadChar c = true ∨ c = 'e' := by
  induction presses using List.reverseRecOn with
  | nil => simp [Panel.run]
  | append_singleton presses k ih =>
    intro c hc
    rw [run_concat] at hc
    rcases (Panel.run {} presses).edits_or_result k with hedit | ⟨v, -, hv, hentry⟩
    · obtain ⟨first, rest, hnext⟩ := List.append_of_mem hc
      rw [List.append_cons] at hnext
      rcases hedit.prefix_concat (hnext ▸ List.prefix_append (first ++ [c]) rest) with
        hbefore | rfl | rfl
      · exact ih (fun k hk => h k (by simp [hk])) c (hbefore.subset (by simp))
      · exact .inl (h (.char c) (by simp)).isKeypadChar
      · exact .inl rfl
    · rw [hentry] at hc
      exact Entry.isKeypadChar_or_e_of_mem_write (Evaluation.evaluate_eq_ok_iff.1 hv).2 hc

/-- An `e` has stood in the line of a keypad ever since a result with an exponent was shown. -/
theorem exists_shown_exponent (h : ∀ k ∈ presses, OnKeypad k) {first : List Char}
    (hfirst : first ++ ['e'] <+: (Panel.run {} presses).entry.text) : ∃ before after v,
      presses = before ++ Press.equals :: after ∧
        evaluate (Panel.run {} before).expression = .ok v ∧ ¬ result.IsPositional v ∧
        first ++ ['e'] <+: result.write v ∧ ∀ middle, middle <+: after →
          first ++ ['e'] <+: (Panel.run {} (before ++ Press.equals :: middle)).entry.text := by
  obtain ⟨before, k, after, rfl, hnot, hmiddle⟩ :=
    exists_since (P := fun text => first ++ ['e'] <+: text) (by simp) hfirst
  have hnext := hmiddle [] List.nil_prefix
  rw [run_concat] at hnext
  rcases (Panel.run {} before).edits_or_result k with hedit | ⟨v, rfl, hv, hentry⟩
  · -- no key types an `e`
    rcases hedit.prefix_concat hnext with hbefore | rfl | hzero
    · exact absurd hbefore hnot
    · have := (h (.char 'e') (by simp)).isKeypadChar
      cases this
    · cases hzero
  · rw [hentry] at hnext
    have hexponent := (NumberFormat.e_mem_write_iff (Evaluation.evaluate_eq_ok_iff.1 hv).2).1
      (hnext.subset (by simp))
    exact ⟨before, after, v, rfl, hv, hexponent, hnext, hmiddle⟩

/-! ## The expression of the line -/

theorem inShape_expression (presses : List Press) :
    InShape (Panel.run {} presses).expression := by
  rcases (Panel.run {} presses).expression_cases with ⟨-, h⟩ | ⟨-, h⟩
  · rw [h]
    exact Entry.inShape_nil.append_plain rfl
      (IsWhole.isPlain ⟨by simp, by simp, .inl rfl⟩)
  · rw [h]
    exact inShape_run presses

theorem isKeypadChar_or_e_of_mem_expression (h : ∀ k ∈ presses, OnKeypad k) :
    ∀ c ∈ (Panel.run {} presses).expression, isKeypadChar c = true ∨ c = 'e' := by
  rcases (Panel.run {} presses).expression_cases with ⟨-, heq⟩ | ⟨-, heq⟩
  · rw [heq]
    simp [isKeypadChar]
  · rw [heq]
    exact isKeypadChar_or_e_of_mem_text h

/-- The line of a keypad has none of the signs of a display. -/
theorem normalize_expression (h : ∀ k ∈ presses, OnKeypad k) :
    Evaluation.normalize (Panel.run {} presses).expression
      = (Panel.run {} presses).expression := by
  apply Evaluation.normalize_eq_self
  intro c hc
  constructor
  · rintro rfl
    rcases isKeypadChar_or_e_of_mem_expression h _ hc with hc | hc <;> cases hc
  · rintro rfl
    rcases isKeypadChar_or_e_of_mem_expression h _ hc with hc | hc <;> cases hc

/-- An error of the line of a keypad is accounted for by the expression as it stands. -/
theorem fault_of_evaluate_expression (h : ∀ k ∈ presses, OnKeypad k) {e : EvaluationError}
    (he : evaluate (Panel.run {} presses).expression = .error e) :
    Evaluation.Fault (Panel.run {} presses).expression e := by
  have := Evaluation.fault_of_evaluate he
  rwa [normalize_expression h] at this

/-! ## The errors that are left -/

/-- An expression that the lexer gets to see has no `e`. -/
theorem isKeypadChar_of_fault?_eq_none (h : ∀ k ∈ presses, OnKeypad k)
    (hcheck : Evaluation.fault? (Panel.run {} presses).expression = none) :
    ∀ c ∈ (Panel.run {} presses).expression, isKeypadChar c = true := by
  intro c hc
  have hallowed := (Evaluation.fault?_eq_none_iff.1 hcheck).2.2.1 c hc
  rcases isKeypadChar_or_e_of_mem_expression h c hc with hkey | rfl
  · exact hkey
  · cases hallowed

/-- Only an `e` is a character that expressions do not have. -/
theorem evaluate_eq_invalidCharacters_iff (h : ∀ k ∈ presses, OnKeypad k) :
    evaluate (Panel.run {} presses).expression = .error .invalidCharacters ↔
      'e' ∈ (Panel.run {} presses).expression := by
  constructor
  · intro he
    have hne : (Panel.run {} presses).expression ≠ [] := by
      rcases (Panel.run {} presses).expression_cases with ⟨-, heq⟩ | ⟨hne, heq⟩
      · rw [heq]
        simp
      · rwa [heq]
    cases fault_of_evaluate_expression h he with
    | characters hbad =>
      obtain ⟨c, hc, hnot⟩ := hbad.resolve_left hne
      rcases isKeypadChar_or_e_of_mem_expression h c hc with hkey | rfl
      · rw [Press.isAllowed_of_isKeypadChar hkey] at hnot
        cases hnot
      · exact hc
  · exact Evaluation.evaluate_of_e_mem

/-- The zero that stands for an empty line has no `e`. -/
theorem e_mem_text_of_e_mem_expression {p : Panel} (h : 'e' ∈ p.expression) :
    'e' ∈ p.entry.text := by
  rcases p.expression_cases with ⟨-, heq⟩ | ⟨-, heq⟩
  · rw [heq] at h
    simp at h
  · rwa [heq] at h

/-- **What an equals can fail with on a keypad.** However the keys and buttons are pressed, an
equals reports no scaling signs next to each other, no character that is in no token, and no doubled
sign. It reports digits and points that are no numeral only if they begin with a zero and another
digit, which is no zero, and have at most one point. It reports a character that expressions do not
have exactly when there is an `e`, and this has stood in the line ever since a result with an
exponent was shown. -/
theorem errors_of_keypad (presses : List Press) (h : ∀ k ∈ presses, OnKeypad k) :
    let text := (Panel.run {} presses).expression
    evaluate text ≠ .error .invalidOperatorSequence ∧
    (∀ c, evaluate text ≠ .error (.lexical (.unexpected c))) ∧
    (∀ op, evaluate text ≠ .error (.lexical (.doubledSign op))) ∧
    (∀ run, evaluate text = .error (.lexical (.badNumeral run)) →
      run ∈ Lexeme.numeralRuns text ∧ run.count '.' ≤ 1 ∧
        ∃ d rest, run = '0' :: d :: rest ∧ d.isDigit = true ∧ d ≠ '0') ∧
    (evaluate text = .error .invalidCharacters ↔ 'e' ∈ text) ∧
    ('e' ∈ text → ∃ before after v first, presses = before ++ Press.equals :: after ∧
      evaluate (Panel.run {} before).expression = .ok v ∧ ¬ result.IsPositional v ∧
      first ++ ['e'] <+: result.write v ∧ ∀ middle, middle <+: after →
        first ++ ['e'] <+: (Panel.run {} (before ++ Press.equals :: middle)).entry.text) := by
  intro text
  have hshape : InShape text := inShape_expression presses
  refine ⟨?_, fun c => Evaluation.evaluate_ne_unexpected c, ?_, ?_,
    evaluate_eq_invalidCharacters_iff h, ?_⟩
  · intro he
    cases fault_of_evaluate_expression h he with
    | operators hpair => exact hshape.not_hasScalingRun hpair
  · intro op he
    cases fault_of_evaluate_expression h he with
    | lexemes hcheck hmistake =>
      cases hmistake with
      | doubledSign hop hpair => exact hshape.not_doubled_infix op hpair
  · intro run he
    cases fault_of_evaluate_expression h he with
    | lexemes hcheck hmistake =>
      cases hmistake with
      | badNumeral hmem hbad =>
        have hchars := isKeypadChar_of_fault?_eq_none h hcheck
        exact ⟨hmem, hshape.exists_idleZero hchars hmem hbad⟩
  · intro he
    obtain ⟨first, rest, htext⟩ := List.append_of_mem (e_mem_text_of_e_mem_expression he)
    rw [List.append_cons] at htext
    obtain ⟨before, after, v, hshown⟩ := exists_shown_exponent h
      (htext ▸ List.prefix_append (first ++ ['e']) rest)
    exact ⟨before, after, v, first, hshown⟩

/-- The word `1/10000000=+1` leaves `1e-7+1`, which fails because of the `e`. -/
theorem errors_of_tiny_result :
    (∀ k ∈ Press.ofWord "1/10000000=+1".toList, OnKeypad k) ∧
    evaluate (Panel.run {} (Press.ofWord "1/10000000=+1".toList)).expression
      = .error .invalidCharacters ∧
    ∃ before after v first, Press.ofWord "1/10000000=+1".toList = before ++ Press.equals :: after ∧
      evaluate (Panel.run {} before).expression = .ok v ∧ ¬ result.IsPositional v ∧
      first ++ ['e'] <+: result.write v ∧ ∀ middle, middle <+: after →
        first ++ ['e'] <+: (Panel.run {} (before ++ Press.equals :: middle)).entry.text := by
  have hkeypad : ∀ k ∈ Press.ofWord "1/10000000=+1".toList, OnKeypad k :=
    fun k hk => Press.onKeypad_of_mem_ofWord hk
  have herror : evaluate (Panel.run {} (Press.ofWord "1/10000000=+1".toList)).expression
      = .error .invalidCharacters := by
    decide +kernel
  obtain ⟨-, -, -, -, hcharacters, hshown⟩ := errors_of_keypad _ hkeypad
  exact ⟨hkeypad, herror, hshown (hcharacters.1 herror)⟩

end Panel
end KeypadCalculator
