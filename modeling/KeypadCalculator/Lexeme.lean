import KeypadCalculator.Lexer

/-!
# Cutting a whole text into tokens

What the tokens of a text are, said of the text as a whole. Its lexemes are the longest runs of
digits and points, and the other characters one by one, blanks left out. `Lexeme.all` lists them
with the places where they end, and `Lexeme.token?` gives the token of each. `Lexeme.Readable` says
which texts have a token for each lexeme and nothing in between that would be a mistake.
-/

namespace KeypadCalculator

/-- A stretch of a text that makes one token. -/
structure Lexeme where
  text : List Char
  /-- How many characters of the whole text come before the end of the stretch. -/
  stop : Nat
  deriving DecidableEq, Repr

namespace Lexeme

/-- The token of a character that is a lexeme by itself. -/
def single? : Char → Option Token
  | '+' => some (.operator .add)
  | '-' => some (.operator .sub)
  | '*' => some (.operator .mul)
  | '/' => some (.operator .div)
  | '%' => some (.operator .rem)
  | '(' => some .openParen
  | ')' => some .closeParen
  | _ => none

/-- The token that a lexeme makes, if it makes one. -/
def token? (lexeme : Lexeme) : Option Token :=
  match lexeme.text with
  | [] => none
  | c :: _ =>
    if Numeral.isNumeralChar c then (Numeral.read? lexeme.text).map .number else single? c

/-- The lexemes of a text that stands after `before` characters. -/
def allFrom (before : Nat) (text : List Char) : List Lexeme :=
  match text with
  | [] => []
  | c :: rest =>
    if Numeral.isNumeralChar c then
      let run := c :: rest.takeWhile Numeral.isNumeralChar
      ⟨run, before + run.length⟩ ::
        allFrom (before + run.length) (rest.dropWhile Numeral.isNumeralChar)
    else if Text.isBlank c then allFrom (before + 1) rest
    else ⟨[c], before + 1⟩ :: allFrom (before + 1) rest
termination_by text.length
decreasing_by
  · have := (List.dropWhile_suffix (l := rest) Numeral.isNumeralChar).length_le
    simp only [List.length_cons]
    omega
  all_goals simp

/-- The lexemes of a text, in order. -/
def all (text : List Char) : List Lexeme :=
  allFrom 0 text

/-- The longest runs of digits and points in a text. -/
def numeralRuns (text : List Char) : List (List Char) :=
  (text.splitOnP fun c => !Numeral.isNumeralChar c).filter (!·.isEmpty)

/-- The texts that can be read as tokens. -/
structure Readable (text : List Char) : Prop where
  /-- Every character belongs to a token or is blank. -/
  characters : ∀ c ∈ text, Numeral.isNumeralChar c = true ∨ Text.isBlank c = true ∨
    c ∈ ['+', '-', '*', '/', '%', '(', ')']
  /-- No plus directly follows a plus. -/
  noDoubledPlus : ¬ ['+', '+'] <:+: text
  /-- No minus directly follows a minus. -/
  noDoubledMinus : ¬ ['-', '-'] <:+: text
  /-- Every run of digits and points is a numeral. -/
  numerals : ∀ run ∈ numeralRuns text, Numeral.isNumeral run = true

end Lexeme
end KeypadCalculator
