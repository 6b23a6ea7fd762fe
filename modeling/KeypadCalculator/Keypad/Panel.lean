import KeypadCalculator.Entry
import KeypadCalculator.Evaluation
import KeypadCalculator.Keypad.Press
import KeypadCalculator.Number.Format

/-!
# The panel

The panel of a calculator is its entry line and its display. Each press changes the line, and the
display shows the line again, except after an evaluation that failed: then the line is empty and the
display says so until the next press.
-/

namespace KeypadCalculator

/-- What the display shows. -/
inductive Display where
  | text (line : List Char)
  | error
  deriving DecidableEq, Repr

/-- The display as a reader sees it; an empty line shows a zero. -/
def Display.render : Display → List Char
  | text [] => ['0']
  | text line => line
  | error => "Error".toList

/-- The entry line and the display. -/
structure Panel where
  entry : Entry := {}
  display : Display := .text []
  deriving DecidableEq, Repr

namespace Panel

/-- The panel that shows the given line. -/
def showing (entry : Entry) : Panel where
  entry
  display := .text entry.text

/-- The expression that an equals evaluates: the line, or zero when it is empty. -/
def expression (p : Panel) : List Char :=
  if p.entry.text.isEmpty then ['0'] else p.entry.text

/-- Handles an equals: the result becomes the line, or the line is cleared and the display says that
there is none. -/
def equals (p : Panel) : Panel :=
  match Evaluation.evaluate p.expression with
  | .ok v => showing (.ofResult (NumberFormat.result.write v))
  | .error _ => { entry := p.entry.clear, display := .error }

/-- Handles one press. -/
def press (p : Panel) : Press → Panel
  | .char c => showing (p.entry.type c).1
  | .clear => showing p.entry.clear
  | .back => showing p.entry.backspace
  | .equals => p.equals

/-- Handles presses one after the other. -/
def run (p : Panel) (presses : List Press) : Panel :=
  presses.foldl press p

end Panel
end KeypadCalculator
