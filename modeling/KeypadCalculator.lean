import KeypadCalculator.Evaluation.TwoPass
import KeypadCalculator.Expression
import KeypadCalculator.Lexeme
import KeypadCalculator.Main
import KeypadCalculator.Number.Word
import KeypadCalculator.Proofs.Calculation.Derivation
import KeypadCalculator.Stepwise
import KeypadCalculator.Proofs.Calculation.FirstError
import KeypadCalculator.Proofs.Lexer.Lexemes
import KeypadCalculator.Proofs.Lexer.Mistakes
import KeypadCalculator.Proofs.Lexer.Scan
import KeypadCalculator.Proofs.Evaluation.Errors
import KeypadCalculator.Proofs.Evaluation.Numerals
import KeypadCalculator.Proofs.Evaluation.Stream
import KeypadCalculator.Proofs.Evaluation.Value
import KeypadCalculator.Proofs.Keypad.Beginning
import KeypadCalculator.Proofs.Keypad.Continuing
import KeypadCalculator.Proofs.Keypad.Failures
import KeypadCalculator.Proofs.Keypad.LastPress
import KeypadCalculator.Proofs.Evaluation.ErrorOrder
import KeypadCalculator.Proofs.Number.Comparison
import KeypadCalculator.Proofs.Evaluation.RoundTrip
import KeypadCalculator.Proofs.Keypad.Verbatim
import KeypadCalculator.Proofs.Program.Agreement
import KeypadCalculator.Proofs.Calculation.Frame
import KeypadCalculator.Proofs.Program.Lines
import KeypadCalculator.Proofs.Program.Session
import KeypadCalculator.Proofs.Program.Streaming
import KeypadCalculator.Proofs.Program.Cutting
import KeypadCalculator.Proofs.Number.Nearest
import KeypadCalculator.Proofs.Number.FewestDigits
import KeypadCalculator.Proofs.Number.ResultForm
import KeypadCalculator.Proofs.Number.ResultValue
import KeypadCalculator.Proofs.Calculation.Recovery
import KeypadCalculator.Proofs.Keypad.Appending
import KeypadCalculator.Proofs.Lexer.Recovery
import KeypadCalculator.Proofs.Lexer.Spacing
import KeypadCalculator.Proofs.Evaluation.Spacing
import KeypadCalculator.Proofs.Program.Arguments
import KeypadCalculator.Proofs.Calculation.Stack
import KeypadCalculator.Proofs.Keypad.Replacing
