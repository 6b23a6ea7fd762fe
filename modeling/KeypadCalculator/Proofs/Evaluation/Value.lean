import KeypadCalculator.Proofs.Evaluation.Stream

/-!
# Which texts have a value

A text has a value when its characters, its signs and its numerals are in order (`Acceptable`) and
the tokens of its lexemes are an expression; the value is that of the expression, unless it is not
finite (`evaluate_eq_ok_iff`).

`acceptable_iff` splits what is asked of the text between the checks of the text as a whole and
the lexer.
-/

namespace KeypadCalculator
namespace Evaluation

open Lexeme (Readable)

variable {text : List Char} {c : Char} {v : Float}

/-! ## Texts in order -/

/-- The texts whose characters, signs and numerals are in order, whatever their tokens are. -/
structure Acceptable (text : List Char) : Prop where
  /-- There is something to evaluate. -/
  length_pos : 1 ≤ text.length
  /-- The text is not too long. -/
  length_le : text.length ≤ 120
  /-- Every character is a digit or one of those that expressions are made of. -/
  characters : ∀ c ∈ text,
    c.isDigit = true ∨ c ∈ ['+', '-', '*', '/', '%', '.', '(', ')', ' ']
  /-- No two of `*` and `/` are next to each other. -/
  noScalingPair : ∀ a ∈ ['*', '/'], ∀ b ∈ ['*', '/'], ¬ [a, b] <:+: text
  /-- No plus directly follows a plus. -/
  noDoubledPlus : ¬ ['+', '+'] <:+: text
  /-- No minus directly follows a minus. -/
  noDoubledMinus : ¬ ['-', '-'] <:+: text
  /-- Every longest run of digits and points is a numeral. -/
  numerals : ∀ run ∈ Lexeme.numeralRuns text, Numeral.isNumeral run = true

theorem isAllowed_iff : isAllowed c = true ↔
    c.isDigit = true ∨ c ∈ ['+', '-', '*', '/', '%', '.', '(', ')', ' '] := by
  rw [isAllowed, Numeral.isNumeralChar]
  simp only [Bool.or_eq_true, Operator.isSymbol_iff_mem, beq_iff_eq, List.mem_cons, List.not_mem_nil,
    or_assoc, or_comm, or_left_comm]

/-- Two scaling signs stand next to each other exactly when they are found so at some place. -/
theorem hasScalingRun_eq_true_iff : hasScalingRun text = true ↔
    ∃ a ∈ ['*', '/'], ∃ b ∈ ['*', '/'], [a, b] <:+: text := by
  have hscaling : ∀ c, isScaling c = true ↔ c ∈ ['*', '/'] := by
    intro c
    simp [isScaling]
  induction text with
  | nil => simp [hasScalingRun]
  | cons c rest ih =>
    have hsplit : hasScalingRun (c :: rest) = true ↔
        (c ∈ ['*', '/'] ∧ ∃ b ∈ ['*', '/'], rest.head? = some b) ∨ hasScalingRun rest = true := by
      cases rest with
      | nil => simp [hasScalingRun]
      | cons d rest =>
        rw [hasScalingRun, List.tail_cons, List.zip_cons_cons, List.any_cons, Bool.or_eq_true,
          Bool.and_eq_true, hscaling, hscaling]
        simp [hasScalingRun]
    -- both sides ask for a pair at the first character or for one after it
    simp only [hsplit, ih, pair_infix_cons_iff]
    constructor
    · intro h
      rcases h with ⟨hc, b, hb, hhead⟩ | ⟨a, ha, b, hb, hpair⟩
      · exact ⟨c, hc, b, hb, .inl ⟨rfl, hhead⟩⟩
      · exact ⟨a, ha, b, hb, .inr hpair⟩
    · intro h
      rcases h with ⟨a, ha, b, hb, ⟨rfl, hhead⟩ | hpair⟩
      · exact .inl ⟨ha, b, hb, hhead⟩
      · exact .inr ⟨a, ha, b, hb, hpair⟩

/-- A text passes the checks of the text as a whole when none of them finds a fault. -/
theorem fault?_eq_none_iff : fault? text = none ↔ 1 ≤ text.length ∧ text.length ≤ 120 ∧
    (∀ c ∈ text, isAllowed c = true) ∧ ¬ hasScalingRun text = true := by
  unfold fault?
  split
  · rename_i h
    rw [Bool.or_eq_true, List.isEmpty_iff, Bool.not_eq_true', ← Bool.not_eq_true,
      List.all_eq_true] at h
    simp only [reduceCtorEq, false_iff]
    intro h
    rcases h with ⟨hpos, -, hall, -⟩
    rcases h with rfl | h
    · cases hpos
    · exact h hall
  · rename_i h
    rw [Bool.or_eq_true, List.isEmpty_iff, Bool.not_eq_true', ← Bool.not_eq_true,
      List.all_eq_true, not_or, not_not] at h
    have hpos : 1 ≤ text.length := List.length_pos_iff.2 h.1
    split
    · simp_all
    · split
      · rename_i hlong
        simp only [maxLength] at hlong
        simp only [reduceCtorEq, false_iff]
        intro h
        rcases h with ⟨-, hle, -⟩
        omega
      · rename_i hrun hlong
        simp only [maxLength] at hlong
        exact ⟨fun _ => ⟨hpos, by omega, h.2, hrun⟩, fun _ => rfl⟩

/-- The characters of an expression belong to tokens or are blank. -/
theorem kind_of_isAllowed (h : isAllowed c = true) : Numeral.isNumeralChar c = true ∨
    Text.isBlank c = true ∨ c ∈ ['+', '-', '*', '/', '%', '(', ')'] := by
  simp only [isAllowed, Bool.or_eq_true, beq_iff_eq] at h
  rcases h with (((h | h) | rfl) | rfl) | rfl
  · exact .inl h
  · exact .inr (.inr (List.mem_append_left ['(', ')'] (Operator.isSymbol_iff_mem.1 h)))
  · exact .inr (.inr (by decide))
  · exact .inr (.inr (by decide))
  · exact .inr (.inl (by decide))

/-- **What is asked of a text is asked in two places**, by the checks of the text as a whole and by
the lexer. -/
theorem acceptable_iff : Acceptable text ↔ fault? text = none ∧ Readable text := by
  -- the lexer allows more characters than the checks do, so its own condition follows
  rw [fault?_eq_none_iff, hasScalingRun_eq_true_iff]
  constructor
  · intro h
    have hall : ∀ c ∈ text, isAllowed c = true := fun c hc => isAllowed_iff.2 (h.characters c hc)
    refine ⟨⟨h.length_pos, h.length_le, hall, ?_⟩, ?_, h.noDoubledPlus, h.noDoubledMinus,
      h.numerals⟩
    · intro h
      rcases h with ⟨a, ha, b, hb, hpair⟩
      exact h.noScalingPair a ha b hb hpair
    · exact fun c hc => kind_of_isAllowed (hall c hc)
  · intro h
    rcases h with ⟨⟨hpos, hle, hall, hscaling⟩, hread⟩
    refine ⟨hpos, hle, ?_, ?_, hread.noDoubledPlus, hread.noDoubledMinus, hread.numerals⟩
    · exact fun c hc => isAllowed_iff.1 (hall c hc)
    · exact fun a ha b hb hpair => hscaling ⟨a, ha, b, hb, hpair⟩

/-! ## The value of a text -/

/-- A text without the signs of a display is evaluated as it is. -/
theorem normalize_eq_self (h : ∀ c ∈ text, c ≠ '×' ∧ c ≠ '÷') : normalize text = text := by
  refine (List.map_congr_left fun c hc => ?_).trans (List.map_id text)
  rw [if_neg (h c hc).1, if_neg (h c hc).2]
  rfl

/-- A text has a value, finite or not, when it is in order and its tokens are an expression. -/
theorem value_eq_ok_iff : value text = .ok v ↔
    Acceptable (normalize text) ∧ Denotes (normalize text) v := by
  rw [value, acceptable_iff, and_assoc, ← stream_eq_ok_iff_denotes]
  cases fault? (normalize text) with
  | some e => simp
  | none => simp

/-- As long as there is no value, nothing is said of its being finite. -/
theorem value_ne_notFinite : value text ≠ .error .notFinite := by
  unfold value
  split
  · rename_i e he
    unfold fault? at he
    intro h
    cases h
    split at he
    · cases he
    · split at he
      · cases he
      · split at he
        · cases he
        · cases he
  · rw [stream_eq_conclude]
    exact conclude_ne_notFinite

theorem evaluate_eq_ok_iff : evaluate text = .ok v ↔
    value text = .ok v ∧ Binary.isFinite v = true := by
  unfold evaluate
  cases value text with
  | error e => simp
  | ok w =>
    by_cases hw : Binary.isFinite w = true
    · simp only [if_pos hw, Except.ok.injEq]
      exact ⟨fun h => ⟨h, h ▸ hw⟩, fun h => h.1⟩
    · simp only [if_neg hw, Except.ok.injEq]
      exact ⟨fun h => (nomatch h), fun h => (hw (h.1 ▸ h.2)).elim⟩

theorem evaluate_eq_notFinite_iff : evaluate text = .error .notFinite ↔
    ∃ v, value text = .ok v ∧ Binary.isFinite v = false := by
  unfold evaluate
  cases hvalue : value text with
  | error e =>
    -- the error is an earlier one
    have he : e ≠ .notFinite := fun he => value_ne_notFinite (he ▸ hvalue)
    simp [he]
  | ok w =>
    by_cases hw : Binary.isFinite w = true
    · simp [hw]
    · simp [hw]

/-- **Texts and their values.** A text evaluates to `v` exactly when, with the display signs replaced,
it is in order, its tokens are an expression with the value `v`, and `v` is finite. If all of this
holds but the last, the value is reported not to be finite. -/
theorem evaluate_classified (text : List Char) :
    (∀ v, evaluate text = .ok v ↔ Acceptable (normalize text) ∧ Denotes (normalize text) v ∧
      Binary.isFinite v = true) ∧
    (evaluate text = .error .notFinite ↔ Acceptable (normalize text) ∧
      ∃ v, Denotes (normalize text) v ∧ Binary.isFinite v = false) := by
  constructor
  · intro v
    rw [evaluate_eq_ok_iff, value_eq_ok_iff, and_assoc]
  · rw [evaluate_eq_notFinite_iff]
    simp only [value_eq_ok_iff, and_assoc, exists_and_left]

-- an infinity on the way to a finite value does no harm
example : evaluate "1/(1/0)".toList = .ok 0 := by decide +kernel

end Evaluation
end KeypadCalculator
