import KeypadCalculator.Evaluation.TwoPass
import KeypadCalculator.Proofs.Calculation.Derivation
import KeypadCalculator.Proofs.Lexer.Scan
import KeypadCalculator.Proofs.Number.Nearest

/-!
# The stream and its two passes

An evaluation feeds a lexer and a calculation in turn. That it comes to the same as scanning the
whole text first and calculating with its tokens afterwards (`stream_eq_conclude`) lets the two
machines be looked at one after the other.

What a text denotes is said without either of them: its lexemes stand for numbers, operators and
parentheses (`Lexeme.Makes`), a numeral for the double nearest to it, and these are an expression
with a value (`Denotes`). A stream yields just that (`stream_eq_ok_iff_denotes`).
-/

namespace KeypadCalculator

/-! ## What lexemes stand for -/

namespace Lexeme

open Numeral (isNumeral isNumeralChar toDecimal)

variable {token : Token} {text rest : List Char} {c : Char}

/-- `Makes lexeme token` says that the lexeme stands for the token. -/
inductive Makes : Lexeme → Token → Prop
  /-- A numeral stands for the double that its value is read as. -/
  | numeral {text : List Char} {stop : Nat} {x : Float} (h : isNumeral text = true)
      (hx : Binary.ReadAs (toDecimal text).value x) : Makes ⟨text, stop⟩ (.number x)
  /-- A character that is no part of a numeral stands for its operator or parenthesis. -/
  | single {c : Char} {stop : Nat} {token : Token} (h : single? c = some token) :
      Makes ⟨[c], stop⟩ token

theorem isNumeralChar_of_single? (h : single? c = some token) : isNumeralChar c = false := by
  have hc := isSome_single?_iff.1 (Option.isSome_of_eq_some h)
  fin_cases hc <;> rfl

theorem isNumeralChar_of_isNumeral (h : isNumeral [c] = true) : isNumeralChar c = true := by
  rw [isNumeral, Bool.and_eq_true, Bool.and_eq_true, List.any_cons, List.any_nil,
    Bool.or_false] at h
  exact Numeral.isNumeralChar_of_isDigit h.1.1

/-- A lexeme of a text stands for the token that it makes. -/
theorem makes_iff (hl : Leads text rest) (stop : Nat) :
    Makes ⟨text, stop⟩ token ↔ token? ⟨text, stop⟩ = some token := by
  cases hl with
  | @run c run rest hc hrun hrest =>
    rw [token?_run hc, Option.map_eq_some_iff]
    constructor
    · intro h
      cases h with
      | numeral h hx => exact ⟨_, Numeral.read?_eq_some_iff.2 ⟨h, hx⟩, rfl⟩
      | single h => exact absurd hc (by simp [isNumeralChar_of_single? h])
    · intro h
      rcases h with ⟨x, hx, rfl⟩
      obtain ⟨hnumeral, hread⟩ := Numeral.read?_eq_some_iff.1 hx
      exact .numeral hnumeral hread
  | @single c rest hn hb =>
    rw [token?_single hn]
    constructor
    · intro h
      cases h with
      | numeral h hx => exact absurd (isNumeralChar_of_isNumeral h) (by simp [hn])
      | single h => exact h
    · exact fun h => .single h

/-- The lexemes of a text stand for the tokens that they make. -/
theorem forall₂_makes_iff (before : Nat) {tokens : List Token} :
    List.Forall₂ Makes (allFrom before text) tokens ↔
      tokens.map some = (allFrom before text).map token? := by
  induction text using text_induction generalizing before tokens with
  | nil =>
    rw [allFrom_nil, List.forall₂_nil_left_iff, List.map_nil, List.map_eq_nil_iff]
  | blank c rest hn hb ih =>
    rw [allFrom_blank hn hb]
    exact ih (before + 1)
  | lexeme text rest hl ih =>
    rw [allFrom_append hl, List.map_cons]
    cases tokens with
    | nil => simp
    | cons token tokens =>
      rw [List.forall₂_cons, makes_iff hl, ih, List.map_cons, List.cons.injEq, eq_comm]

end Lexeme

namespace Evaluation

open Lexeme (Readable)
open Expression (HasValue)

variable {text : List Char} {v : Float}

/-! ## One pass and two passes -/

/-- What is left to do once a text is scanned: to calculate with its tokens, and only then to look
at the error that the scan ended with. -/
def conclude (c : Calculation) (scanned : List Token × Option LexicalError) :
    Except EvaluationError Float :=
  match c.pushAll scanned.1 with
  | .error e => .error (.structural e)
  | .ok c =>
    match scanned.2 with
    | some e => .error (.lexical e)
    | none => c.outcome.mapError .structural

/-- A token that a lexer lets out is the first one to calculate with. -/
theorem conclude_toList_append (c : Calculation) (token : Option Token) (tokens : List Token)
    (error : Option LexicalError) :
    conclude c (token.toList ++ tokens, error) = match supply c token with
      | .error e => .error e
      | .ok c => conclude c (tokens, error) := by
  cases token with
  | none => rfl
  | some token =>
    rw [conclude, Option.toList_some, List.singleton_append, Calculation.pushAll, supply]
    obtain ⟨next, answer⟩ := c.push token
    cases answer with
    | error e => rfl
    | ok _ => rfl

/-- Nothing but an error of the lexer or the calculation comes out. -/
theorem conclude_ne_notFinite {c : Calculation} {scanned : List Token × Option LexicalError} :
    conclude c scanned ≠ .error .notFinite := by
  unfold conclude
  split
  · exact fun h => nomatch h
  · split
    · exact fun h => nomatch h
    · rename_i last _ _ _
      cases last.outcome with
      | error e => exact fun h => nomatch h
      | ok v => exact fun h => nomatch h

/-- **One pass is as good as two.** The induction is on the text, with lexer and calculation in any
state. -/
theorem stream_eq_conclude (lexer : Lexer) (c : Calculation) (text : List Char) :
    stream lexer c text = conclude c (lexer.scan text) := by
  induction text generalizing lexer c with
  | nil =>
    rw [stream, Lexer.scan]
    cases lexer.release with
    | error e => rfl
    | ok token =>
      have := conclude_toList_append c token [] none
      rw [List.append_nil] at this
      simp only [this]
      cases supply c token with
      | error e => rfl
      | ok c => rfl
  | cons char rest ih =>
    unfold stream
    cases hfeed : lexer.feed char with
    | mk next answer =>
      cases answer with
      | error e =>
        -- neither pass has any more tokens to take
        rw [Lexer.scan_cons_of_error hfeed]
        rfl
      | ok token =>
        rw [Lexer.scan_cons_of_feed hfeed, conclude_toList_append]
        dsimp only
        cases supply c token with
        | error e => rfl
        | ok c => exact ih next c

/-- A stream yields a value when the whole text is scanned without an error and its tokens are taken
without one. -/
theorem stream_eq_ok_iff {lexer : Lexer} {c : Calculation} : stream lexer c text = .ok v ↔
    ∃ tokens last, lexer.scan text = (tokens, none) ∧ c.pushAll tokens = .ok last ∧
      last.outcome = .ok v := by
  rw [stream_eq_conclude]
  -- `conclude` looks for an error of the calculation first, then for one of the lexer
  obtain ⟨tokens, error⟩ := lexer.scan text
  unfold conclude
  cases hrun : c.pushAll tokens with
  | error e => simp [hrun]
  | ok last =>
    cases error with
    | some e => simp
    | none =>
      cases hv : last.outcome with
      | error e => simp [Except.mapError, hrun, hv]
      | ok w => simp [Except.mapError, hrun, hv]

/-! ## What a text is worth -/

/-- `Denotes text v` says that the lexemes of the text all stand for tokens, and that these are an
expression with the value `v`. -/
def Denotes (text : List Char) (v : Float) : Prop :=
  ∃ tokens : List Token, List.Forall₂ Lexeme.Makes (Lexeme.all text) tokens ∧ HasValue tokens v

theorem denotes_iff : Denotes text v ↔ ∃ tokens : List Token,
    tokens.map some = (Lexeme.all text).map Lexeme.token? ∧ HasValue tokens v := by
  simp only [Denotes, Lexeme.all, Lexeme.forall₂_makes_iff]

theorem stream_eq_ok_iff_denotes :
    stream .ready {} text = .ok v ↔ Readable text ∧ Denotes text v := by
  rw [stream_eq_ok_iff, denotes_iff]
  constructor
  · intro h
    rcases h with ⟨tokens, last, hscan, hrun, hv⟩
    obtain ⟨hreadable, htokens⟩ := (Lexer.scan_iff 0).1 hscan
    exact ⟨hreadable, tokens, htokens, Calculation.hasValue_of_pushAll hrun hv⟩
  · intro h
    rcases h with ⟨hreadable, tokens, htokens, hvalue⟩
    obtain ⟨last, hrun, hv⟩ := Calculation.exists_pushAll_of_hasValue hvalue
    exact ⟨tokens, last, (Lexer.scan_iff 0).2 ⟨hreadable, htokens⟩, hrun, hv⟩

end Evaluation
end KeypadCalculator
