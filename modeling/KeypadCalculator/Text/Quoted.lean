import KeypadCalculator.Text.Hidden

/-!
# Quoted text

Messages and log records show a character or a text between quotes, with whatever would not be
visible there replaced by an escape: `\0`, `\t`, `\r` and `\n`, a backslash before the backslash
and the quote in use, and the code in braces for every other hidden character.
-/

namespace KeypadCalculator.Text

/-- One character as it stands between two `quote`s. -/
def escape (quote c : Char) : List Char :=
  if c = '\x00' then ['\\', '0']
  else if c = '\t' then ['\\', 't']
  else if c = '\r' then ['\\', 'r']
  else if c = '\n' then ['\\', 'n']
  else if c = '\\' ∨ c = quote then ['\\', c]
  else if isHidden c then ['\\', 'u', '\x7b'] ++ Nat.toDigits 16 c.toNat ++ ['\x7d']
  else [c]

/-- A character between single quotes. -/
def quoteChar (c : Char) : List Char :=
  '\'' :: (escape '\'' c ++ ['\''])

/-- A text between double quotes. -/
def quoteText (text : List Char) : List Char :=
  '"' :: (text.flatMap (escape '"') ++ ['"'])

example : quoteChar '\'' = ['\'', '\\', '\'', '\''] := by decide +kernel
example : quoteText ['\'', '"'] = ['"', '\'', '\\', '"', '"'] := by decide +kernel

end KeypadCalculator.Text
