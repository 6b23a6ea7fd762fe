import KeypadCalculator.Proofs.Evaluation.Value
import KeypadCalculator.Proofs.Number.ResultText

/-!
# Texts of plain numerals

The tokens of a text are read off its lexemes from the first one on (`Reads`). So a plain numeral
with an operator and another plain numeral behind it, and perhaps a minus before it, is worth what
the operator makes of the two numbers (`value_binary`).
-/

namespace KeypadCalculator
namespace Evaluation

open Expression (Derives HasValue)
open Lexeme (Leads Readable RepeatsSign allFrom)
open Numeral (isNumeralChar IsPlain toDecimal)
open NumberFormat (signText)

variable {text rest left right : List Char} {tokens : List Token} {c : Char} {v : Float}

/-! ## Reading from the first lexeme on -/

/-- `Reads text tokens` says that the text can be read and makes these tokens. -/
structure Reads (text : List Char) (tokens : List Token) : Prop where
  readable : Readable text
  /-- Where the text stands does not matter. -/
  tokens_eq : ∀ before, tokens.map some = (allFrom before text).map Lexeme.token?

theorem reads_nil : Reads [] [] where
  readable := Lexeme.readable_nil
  tokens_eq before := by
    rw [Lexeme.allFrom_nil]
    rfl

theorem Reads.lexeme (hl : Leads text rest) {token : Token}
    (htoken : ∀ stop, Lexeme.token? ⟨text, stop⟩ = some token) (hsign : ¬ RepeatsSign text rest)
    (h : Reads rest tokens) : Reads (text ++ rest) (token :: tokens) where
  readable := by
    rw [Lexeme.readable_append hl 0, htoken]
    exact ⟨rfl, hsign, h.readable⟩
  tokens_eq before := by
    rw [Lexeme.allFrom_append hl, List.map_cons, List.map_cons, htoken, ← h.tokens_eq]

/-- A plain numeral is one token, if no digit or point follows. -/
theorem Reads.numeral (hleft : IsPlain left) (hrest : ∀ d ∈ rest.head?, isNumeralChar d = false)
    (h : Reads rest tokens) :
    Reads (left ++ rest) (.number (toDecimal left).toFloat :: tokens) := by
  obtain ⟨c, hc, hdigit⟩ := hleft.head
  obtain ⟨run, rfl⟩ := List.head?_eq_some_iff.1 hc
  have hnumeral : isNumeralChar c = true := Numeral.isNumeralChar_of_isDigit hdigit
  have hrun : ∀ d ∈ run, isNumeralChar d = true :=
    fun d hd => hleft.characters d (List.mem_cons_of_mem _ hd)
  apply h.lexeme (.run hnumeral hrun hrest)
  · intro stop
    rw [Lexeme.token?_run hnumeral, hleft.read?, Option.map_some]
  · exact Lexeme.not_repeatsSign_run hnumeral

/-- An operator is one token, if it is not repeated. -/
theorem Reads.operator (op : Operator) (hrest : rest.head? ≠ some op.symbol)
    (h : Reads rest tokens) : Reads (op.symbol :: rest) (.operator op :: tokens) := by
  have hn : isNumeralChar op.symbol = false := by
    cases op <;> rfl
  have hb : Text.isBlank op.symbol = false := by
    cases op <;> decide
  have hleads : Leads [op.symbol] rest := .single hn hb
  apply h.lexeme hleads
  · intro stop
    rw [Lexeme.token?_single hn, Lexeme.single?_eq_ofChar?, Token.ofChar?_eq_operator_iff.2 rfl]
  · rw [Lexeme.repeatsSign_singleton_iff]
    rintro (⟨heq, hplus⟩ | ⟨heq, hminus⟩)
    · exact hrest (heq ▸ hplus)
    · exact hrest (heq ▸ hminus)

/-- A plain numeral does not begin with an operator. -/
theorem head?_ne_symbol (hleft : IsPlain left) (op : Operator) :
    (left ++ rest).head? ≠ some op.symbol := by
  obtain ⟨c, hc, hdigit⟩ := hleft.head
  obtain ⟨run, rfl⟩ := List.head?_eq_some_iff.1 hc
  rw [List.cons_append, List.head?_cons, Ne, Option.some.injEq]
  rintro rfl
  cases op <;> cases hdigit

/-! ## A numeral with a sign -/

/-- The token of the minus before a negative number. -/
def signTokens (negated : Bool) : List Token :=
  if negated then [.operator .sub] else []

theorem Reads.signed (hleft : IsPlain left) (negated : Bool) (h : Reads (left ++ rest) tokens) :
    Reads (signText negated ++ (left ++ rest)) (signTokens negated ++ tokens) := by
  cases negated with
  | false => exact h
  | true => exact h.operator .sub (head?_ne_symbol hleft .sub)

/-- A number with a sign is a factor. -/
theorem derives_signed (negated : Bool) (v : Float) :
    Derives .factor (signTokens negated ++ [.number v]) (signed negated v) := by
  cases negated with
  | false =>
    show Derives .factor (([] : List Operator).map .operator ++ [.number v]) v
    exact .factor (by simp) (.number v)
  | true =>
    show Derives .factor ([Operator.sub].map .operator ++ [.number v]) (-v)
    exact .factor (by simp [Operator.isAdditive]) (.number v)

/-! ## An operator between two numerals -/

/-- The tokens of two numbers with an operator between them are an expression. -/
theorem hasValue_binary (negated : Bool) (op : Operator) (l r : Float) :
    HasValue (signTokens negated ++ [.number l, .operator op, .number r])
      (op.apply (signed negated l) r) := by
  have hleft : Derives .product (signTokens negated ++ [.number l]) (signed negated l) :=
    .ofFactor (derives_signed negated l)
  have hright : Derives .factor [.number r] r := derives_signed false r
  rw [List.append_cons]
  cases hop : op.isAdditive with
  | true => exact .added hop (.ofProduct hleft) (.ofFactor hright)
  | false => exact .ofProduct (.scaled hop hleft hright)

theorem isAllowed_of_isNumeralChar (h : isNumeralChar c = true) : isAllowed c = true := by
  simp [isAllowed, h]

theorem isAllowed_of_isSymbol (h : Operator.isSymbol c = true) : isAllowed c = true := by
  simp [isAllowed, h]

theorem countP_isScaling_of_isPlain (h : IsPlain left) : left.countP isScaling = 0 := by
  rw [List.countP_eq_zero]
  intro c hc hscaling
  have hnumeral := h.characters c hc
  rw [isScaling, Bool.or_eq_true, beq_iff_eq, beq_iff_eq] at hscaling
  rcases hscaling with rfl | rfl
  · cases hnumeral
  · cases hnumeral

/-- A text with a single scaling sign has no two of them next to each other. -/
theorem not_hasScalingRun_of_countP_le (h : text.countP isScaling ≤ 1) :
    ¬ hasScalingRun text = true := by
  rw [hasScalingRun_eq_true_iff]
  rintro ⟨a, ha, b, hb, hpair⟩
  have hscaling {c : Char} (hc : c ∈ ['*', '/']) : isScaling c = true := by
    simpa [isScaling] using hc
  have hle : [a, b].countP isScaling ≤ text.countP isScaling := hpair.sublist.countP_le
  rw [List.countP_cons_of_pos (hscaling ha), List.countP_cons_of_pos (hscaling hb)] at hle
  omega

/-- A text is worth what its tokens are, if it has no fault as a whole. -/
theorem value_of_reads (hreads : Reads text tokens) (hvalue : HasValue tokens v)
    (hnonempty : text ≠ []) (hlength : text.length ≤ 120)
    (hallowed : ∀ c ∈ text, isAllowed c = true) (hscaling : text.countP isScaling ≤ 1) :
    value text = .ok v := by
  have hnormal : normalize text = text := by
    apply normalize_eq_self
    intro c hc
    constructor
    · rintro rfl
      cases hallowed _ hc
    · rintro rfl
      cases hallowed _ hc
  have hfault : fault? text = none := fault?_eq_none_iff.2
    ⟨List.length_pos_iff.2 hnonempty, hlength, hallowed, not_hasScalingRun_of_countP_le hscaling⟩
  rw [value_eq_ok_iff, hnormal, acceptable_iff]
  exact ⟨⟨hfault, hreads.readable⟩, denotes_iff.2 ⟨tokens, hreads.tokens_eq 0, hvalue⟩⟩

/-- A numeral, an operator and a numeral make three tokens, or four with a minus before them. -/
theorem reads_binary (hleft : IsPlain left) (hright : IsPlain right) (negated : Bool)
    (op : Operator) : Reads (signText negated ++ (left ++ op.symbol :: right))
      (signTokens negated ++ [.number (toDecimal left).toFloat, .operator op,
        .number (toDecimal right).toFloat]) := by
  have hlast : Reads right [.number (toDecimal right).toFloat] := by
    have := reads_nil.numeral hright (by simp)
    rwa [List.append_nil] at this
  have hends : ∀ d ∈ (op.symbol :: right).head?, isNumeralChar d = false := by
    intro d hd
    obtain rfl : op.symbol = d := by simpa using hd
    cases op <;> rfl
  have hfirst : right.head? ≠ some op.symbol := by
    have : (right ++ []).head? ≠ some op.symbol := head?_ne_symbol hright op
    rwa [List.append_nil] at this
  exact Reads.signed hleft negated (Reads.numeral hleft hends (hlast.operator op hfirst))

/-- **An operator between two numerals is worth what it makes of the two numbers.** -/
theorem value_binary (hleft : IsPlain left) (hright : IsPlain right) (negated : Bool)
    (op : Operator)
    (hlength : (signText negated ++ (left ++ op.symbol :: right)).length ≤ 120) :
    value (signText negated ++ (left ++ op.symbol :: right))
      = .ok (op.apply (signed negated (toDecimal left).toFloat) (toDecimal right).toFloat) := by
  have hallowed : ∀ c ∈ signText negated ++ (left ++ op.symbol :: right), isAllowed c = true := by
    intro c hc
    simp only [List.mem_append, List.mem_cons] at hc
    rcases hc with hc | hc | rfl | hc
    · cases negated with
      | false => cases hc
      | true =>
        obtain rfl := List.mem_singleton.1 hc
        rfl
    · exact isAllowed_of_isNumeralChar (hleft.characters c hc)
    · exact isAllowed_of_isSymbol op.isSymbol_symbol
    · exact isAllowed_of_isNumeralChar (hright.characters c hc)
  -- the operator is the only character that may be a scaling sign
  have hscaling : (signText negated ++ (left ++ op.symbol :: right)).countP isScaling ≤ 1 := by
    have hsign : (signText negated).countP isScaling = 0 := by
      cases negated <;> rfl
    have hop : [op.symbol].countP isScaling ≤ 1 := List.countP_le_length
    rw [List.append_cons, List.countP_append, List.countP_append, List.countP_append, hsign,
      countP_isScaling_of_isPlain hleft, countP_isScaling_of_isPlain hright]
    omega
  exact value_of_reads (reads_binary hleft hright negated op) (hasValue_binary negated op _ _)
    (by simp) hlength hallowed hscaling

end Evaluation
end KeypadCalculator
