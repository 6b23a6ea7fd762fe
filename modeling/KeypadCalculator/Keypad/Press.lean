import KeypadCalculator.Operator

/-!
# Presses

Whatever the source, the keyboard, a button or a word on standard input, a calculator is driven by
presses: a character typed, or one of three commands. Here are the names by which the sources call
them.
-/

namespace KeypadCalculator

/-- One press of the keypad. -/
inductive Press where
  | char (c : Char)
  | clear
  | back
  | equals
  deriving DecidableEq, Repr

namespace Press

/-- Whether the keypad has the character on a key. -/
def isKeypadChar (c : Char) : Bool :=
  c.isDigit || Operator.isSymbol c || c == '.' || c == '(' || c == ')'

/-- The press of a name that is a single character of the keypad. -/
def ofChar? (name : String) : Option Press :=
  match name.toList with
  | [c] => if isKeypadChar c then some (char c) else none
  | _ => none

/-- The press of a key of the keyboard, by the name of the key. -/
def ofKey? (name : String) : Option Press :=
  if name = "Enter" ∨ name = "=" then some equals
  else if name = "Backspace" then some back
  else if name = "Delete" ∨ name = "Escape" then some clear
  else ofChar? name

/-- The press of a button that names an action. -/
def ofAction? (name : String) : Option Press :=
  if name = "clear" then some clear
  else if name = "back" then some back
  else if name = "equals" then some equals
  else none

/-- The press of a button that shows a character; three of them show other signs than they type. -/
def ofLabel? (label : String) : Option Press :=
  if label = "÷" then some (char '/')
  else if label = "×" then some (char '*')
  else if label = "−" then some (char '-')
  else ofChar? label

/-- The press that a name stands for: a key, else an action, else a label. -/
def ofName? (name : String) : Option Press :=
  (ofKey? name).or ((ofAction? name).or (ofLabel? name))

/-- The presses of a word: the one it names, or else those that its characters name. -/
def ofWord (word : List Char) : List Press :=
  match ofName? (String.ofList word) with
  | some press => [press]
  | none => word.filterMap fun c => ofName? (String.ofList [c])

end Press
end KeypadCalculator
