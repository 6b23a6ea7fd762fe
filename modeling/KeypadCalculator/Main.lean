import KeypadCalculator.Program

/-!
# The command

`KEYPAD_LOG` names the level of the log, `warn` if it is not set.
-/

namespace KeypadCalculator.Program

/-- Reads a stream to its end. -/
partial def readToEnd (stream : IO.FS.Stream) (before : ByteArray) : IO ByteArray := do
  let bytes ← stream.read 65536
  if bytes.isEmpty then return before
  readToEnd stream (before ++ bytes)

end KeypadCalculator.Program

open KeypadCalculator in
/-- Runs the program on the arguments and standard input of the process. -/
def main (arguments : List String) : IO UInt32 := do
  let level := LogLevel.ofName? ((← IO.getEnv "KEYPAD_LOG").getD "warn")
  let stdin ← if arguments.isEmpty then Program.readToEnd (← IO.getStdin) .empty else pure .empty
  let outcome := Program.run (level.getD .off) (arguments.map (·.toUTF8.toList)) stdin.toList
  IO.eprint outcome.stderr
  IO.print outcome.stdout
  return outcome.code.toUInt32
