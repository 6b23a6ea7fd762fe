import KeypadCalculator.Keypad.Panel

/-!
# The log

What the calculator does can be followed in a log. Events are values: `Evaluation.events` and
`Panel.events` say which ones an evaluation and a press bring about, in their order, and `Event.render`
writes one as a line. A log keeps the events of its level and above.
-/

namespace KeypadCalculator

/-- How much a log shows. -/
inductive LogLevel where
  | off
  | error
  | warn
  | info
  | debug
  | trace
  deriving DecidableEq, Repr

namespace LogLevel

/-- The names of the levels. -/
def name : LogLevel → String
  | off => "off"
  | error => "error"
  | warn => "warn"
  | info => "info"
  | debug => "debug"
  | trace => "trace"

/-- The levels, from the one that shows nothing to the one that shows all. -/
def all : List LogLevel :=
  [off, error, warn, info, debug, trace]

/-- The level of a given name, in any mixture of cases. -/
def ofName? (name : String) : Option LogLevel :=
  all.find? fun level => level.name == name.toLower

/-- How much a level shows, compared with the others. -/
def verbosity (level : LogLevel) : Nat :=
  all.idxOf level

/-- Whether a log of the level `shown` shows what is of `level`. -/
def admits (shown level : LogLevel) : Bool :=
  decide (level.verbosity ≤ shown.verbosity)

end LogLevel

/-- Something worth recording. -/
inductive Event where
  /-- A character was not taken. -/
  | rejected (text : List Char) (reason : Rejection)
  /-- An expression has a value, which may yet be infinite or no number. -/
  | evaluated (expression : List Char) (value : Float)
  /-- The expression of an entry line has no finite value. -/
  | failed (expression : List Char) (error : EvaluationError)
  /-- A press was handled and left this line. -/
  | handled (press : Press) (entry : Entry)

namespace Event

/-- The level of an event. -/
def level : Event → LogLevel
  | failed .. => .debug
  | _ => .trace

/-- How a press is named in the log. -/
def pressName : Press → String
  | .char c => "Char(" ++ String.ofList (Text.quoteChar c) ++ ")"
  | .clear => "Clear"
  | .back => "Back"
  | .equals => "Equals"

/-- The line of an event. -/
def render : Event → String
  | rejected text .secondPoint =>
    "TRACE kc::buffer: rejected second decimal point buffer=" ++ String.ofList text
  | rejected text .leadingZero =>
    "TRACE kc::buffer: rejected leading zero buffer=" ++ String.ofList text
  | rejected _ (.leadingOperator c) =>
    "TRACE kc::controller: rejected operator on empty expression operator=" ++ String.ofList [c]
  | evaluated expression value =>
    "TRACE kc::evaluator: evaluated expression=" ++ String.ofList expression
      ++ " value=" ++ String.ofList (NumberFormat.record.write value)
  | failed expression error =>
    "DEBUG kc::controller: evaluation failed expression=" ++ String.ofList expression
      ++ " error=" ++ error.message
  | handled press entry =>
    "TRACE kc::controller: handled input input=" ++ pressName press
      ++ " buffer=" ++ String.ofList (Text.quoteText entry.text)
      ++ " evaluated=" ++ (if entry.isResult then "true" else "false")

/-- The lines of a log of the given level. -/
def log (level : LogLevel) (events : List Event) : String :=
  String.join ((events.filter fun e => level.admits e.level).map fun e => e.render ++ "\n")

end Event

/-- The events of an evaluation. -/
def Evaluation.events (text : List Char) : List Event :=
  match Evaluation.value text with
  | .ok v => [.evaluated (Evaluation.normalize text) v]
  | .error _ => []

namespace Panel

/-- The events of a press, up to its being handled. -/
def eventsOf (p : Panel) : Press → List Event
  | .char c =>
    match p.entry.type c with
    | (entry, some reason) => [.rejected entry.text reason]
    | (_, none) => []
  | .equals =>
    Evaluation.events p.expression ++
      match Evaluation.evaluate p.expression with
      | .ok _ => []
      | .error e => [.failed p.expression e]
  | _ => []

/-- The events of presses one after the other. -/
def events (p : Panel) : List Press → List Event
  | [] => []
  | press :: rest =>
    let next := p.press press
    p.eventsOf press ++ .handled press next.entry :: next.events rest

end Panel
end KeypadCalculator
