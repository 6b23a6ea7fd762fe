import KeypadCalculator.Number.Numeral
import KeypadCalculator.Text.Blank
import KeypadCalculator.Text.Quoted
import KeypadCalculator.Token

/-!
# Reading tokens one character at a time

A lexer is fed the characters of an expression and answers each of them with at most one token. A
numeral is complete only when a character comes that does not belong to it, and a parenthesis or
operator is held back in the same way, so that one character never has to yield two tokens: the
answer to a character is always the token before it.

Two equal signs in a row, `++` or `--`, are not a chain of signs but a mistake; a blank between
them makes them one.

After an error nothing is held back, and the character that brought it is dropped.
-/

namespace KeypadCalculator

/-- What a lexer holds back. -/
inductive Lexer where
  /-- Nothing. -/
  | ready
  /-- The characters of a numeral so far. -/
  | numeral (text : List Char)
  /-- A parenthesis or operator. -/
  | held (token : Token)
  deriving DecidableEq, Repr

/-- Why a text is not a sequence of tokens. -/
inductive LexicalError where
  /-- A character that begins no token. -/
  | unexpected (c : Char)
  /-- Digits and points that are no numeral. -/
  | badNumeral (text : List Char)
  /-- A sign directly after the same sign. -/
  | doubledSign (op : Operator)
  deriving DecidableEq, Repr

/-- The wording of a lexical error. -/
def LexicalError.message : LexicalError → String
  | unexpected c => "Unexpected token: " ++ String.ofList (Text.quoteChar c)
  | badNumeral text => "Invalid number: " ++ String.ofList text
  | doubledSign op => "Unknown operation: " ++ String.ofList [op.symbol, op.symbol]

namespace Lexer

/-- What a lexer answers: a token, nothing yet, or an error. -/
abbrev Answer :=
  Except LexicalError (Option Token)

/-- The token held back, if any. -/
def release : Lexer → Answer
  | ready => .ok none
  | numeral text =>
    match Numeral.read? text with
    | some value => .ok (some (.number value))
    | none => .error (.badNumeral text)
  | held token => .ok (some token)

/-- What is held back after a character with which reading starts anew. -/
def start (c : Char) : Except LexicalError Lexer :=
  if Numeral.isNumeralChar c then .ok (numeral [c])
  else if Text.isBlank c then .ok ready
  else match Token.ofChar? c with
    | some token => .ok (held token)
    | none => .error (.unexpected c)

/-- Releases what is held back and starts anew with `c`. If either fails, nothing is held and what
was released is lost. -/
def advance (lexer : Lexer) (c : Char) : Lexer × Answer :=
  match lexer.release with
  | .error e => (ready, .error e)
  | .ok token =>
    match start c with
    | .error e => (ready, .error e)
    | .ok next => (next, .ok token)

/-- The plus or minus that is held back, when `c` repeats it. -/
def doubledSign? : Lexer → Char → Option Operator
  | held (.operator .add), '+' => some .add
  | held (.operator .sub), '-' => some .sub
  | _, _ => none

/-- Feeds one character. -/
def feed (lexer : Lexer) (c : Char) : Lexer × Answer :=
  match lexer.doubledSign? c with
  | some op => (ready, .error (.doubledSign op))
  | none =>
    match lexer with
    | numeral text =>
      if Numeral.isNumeralChar c then (numeral (text ++ [c]), .ok none) else lexer.advance c
    | _ => lexer.advance c

/-- Ends the text: what is held back comes out, and the lexer is ready for another text. -/
def finish (lexer : Lexer) : Lexer × Answer :=
  (ready, lexer.release)

/-! ## Runs -/

/-- What a lexer may be given. -/
inductive Input where
  | char (c : Char)
  | finish
  deriving DecidableEq, Repr

/-- Takes one input. -/
def step (lexer : Lexer) : Input → Lexer × Answer
  | .char c => lexer.feed c
  | .finish => lexer.finish

/-- Reads a text to its end: the tokens up to the first error, and that error if there is one. -/
def scan (lexer : Lexer) : List Char → List Token × Option LexicalError
  | [] =>
    match lexer.release with
    | .error e => ([], some e)
    | .ok token => (token.toList, none)
  | c :: rest =>
    match lexer.feed c with
    | (_, .error e) => ([], some e)
    | (next, .ok token) =>
      let (tokens, error) := next.scan rest
      (token.toList ++ tokens, error)

end Lexer
end KeypadCalculator
