import KeypadCalculator.Log

/-!
# The program

Called with arguments, the program evaluates them as one expression. Called without, it is a piped
session: it reads lines of words from standard input, takes the words as presses, and shows the
display after every line. Both are functions of bytes, and what they write is split into what goes
to standard output and what goes to standard error.
-/

namespace KeypadCalculator

/-- What a run of the program leaves behind. -/
structure Outcome where
  stdout : String := ""
  stderr : String := ""
  code : Nat := 0
  deriving DecidableEq, Repr

namespace Program

/-! ## Bytes and text -/

/-- The characters that the bytes encode. -/
def decode? (bytes : List UInt8) : Option (List Char) :=
  (String.fromUTF8? ⟨bytes.toArray⟩).map String.toList

/-- The lines of the input, without the newlines that end them. The last line need not be ended, so
an empty piece after the last newline is no line. -/
def lines (input : List UInt8) : List (List UInt8) :=
  let pieces := input.splitOn 10
  if pieces.getLast? = some [] then pieces.dropLast else pieces

/-- The words of a line, which are what stands between blanks. A carriage return before the newline
is a blank like any other. -/
def words (line : List Char) : List (List Char) :=
  (line.splitOnP Text.isBlank).filter (!·.isEmpty)

/-! ## Arguments -/

/-- Puts a space between arguments, except while there is no text yet. -/
def joined (arguments : List (List Char)) : List Char :=
  arguments.foldl (fun text a => if text.isEmpty then a else text ++ ' ' :: a) []

/-- Evaluates the arguments as one expression. -/
def evaluateArguments (level : LogLevel) (arguments : List (List UInt8)) : Outcome :=
  match arguments.mapM decode? with
  | none => { stderr := "Arguments contain invalid UTF-8 string\n", code := 1 }
  | some arguments =>
    let text := joined arguments
    let log := Event.log level (Evaluation.events text)
    match Evaluation.evaluate text with
    | .ok v => { stdout := String.ofList (NumberFormat.result.write v) ++ "\n", stderr := log }
    | .error e => { stderr := log ++ e.message ++ "\n", code := 1 }

/-! ## A piped session -/

/-- The presses of a line. -/
def presses (line : List Char) : List Press :=
  (words line).flatMap Press.ofWord

/-- Goes through the lines, and stops at the first one that is not text. -/
def session (level : LogLevel) (p : Panel) : List (List UInt8) → Outcome
  | [] => {}
  | line :: rest =>
    match decode? line with
    | none => { stderr := "stream did not contain valid UTF-8\n", code := 1 }
    | some text =>
      let next := p.run (presses text)
      let later := session level next rest
      { stdout := String.ofList next.display.render ++ "\n" ++ later.stdout
        stderr := Event.log level (p.events (presses text)) ++ later.stderr
        code := later.code }

/-! ## The whole -/

/-- Runs the program. Standard input is read only when there are no arguments. -/
def run (level : LogLevel) (arguments : List (List UInt8)) (stdin : List UInt8) : Outcome :=
  if arguments.isEmpty then session level {} (lines stdin) else evaluateArguments level arguments

end Program
end KeypadCalculator
