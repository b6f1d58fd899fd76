import Calculator.CommandLine.Arguments
import Calculator.Evaluate

/-!
# Responses of the command line

What the program writes and how it ends. A result goes to the standard output, with exit code 0; an
error goes to the standard error, with exit code 1; arguments that make no sense are answered with
the usage, with exit code 2. What was recorded on the way precedes an error: with the verbose flag
everything, otherwise warnings only.
-/

namespace Calculator

/-- What is written to the two outputs, and the exit code. -/
structure Response where
  exit : Nat
  out : String
  err : String
deriving DecidableEq

/-- What an expression is asked for with. -/
def prompt : String := "Enter your math expression: "

/-- How the program is used. -/
def usage : String := "usage: mathexpr [-h] [-v] [expression]\n"

/-- The text shown on request. -/
def helpText : String :=
  usage ++ "\nEvaluate an arithmetic expression.\n\npositional arguments:\n"
    ++ "  expression     expression to evaluate; prompts when omitted\n\noptions:\n"
    ++ "  -h, --help     show this help message and exit\n"
    ++ "  -v, --verbose  log each pipeline stage\n"

/-- A recorded event as a line. -/
def Event.line (e : Event) : String := e.level ++ " " ++ e.source ++ ": " ++ e.message ++ "\n"

/-- An event that is shown without being asked for. -/
def Event.isWarning : Event → Bool
  | warning _ => true
  | _ => false

/-- The lines of the events that are shown. -/
def logText (verbose : Bool) (events : List Event) : String :=
  String.join ((events.filter fun e => verbose || e.isWarning).map Event.line)

/-- How a value is shown. -/
def Value.resultText : Value → String
  | some (.real x) => Calculator.resultText x
  | v => v.text

namespace Response

/-- The response to an expression. -/
def ofReport (verbose : Bool) (r : Report) : Response :=
  match r.outcome with
  | .ok value => ⟨0, value.resultText ++ "\n", logText verbose r.events⟩
  | .error e => ⟨1, "", logText verbose r.events ++ "Error: " ++ e.message ++ "\n"⟩

/-- The same response after something was written to the standard output. -/
def after (written : String) (r : Response) : Response := { r with out := written ++ r.out }

/-- The first line of an input, without its line break; empty if there is none. -/
def firstLine (input : String) : String := String.ofList (input.toList.takeWhile (· != '\n'))

/-- The response to a command, with the input that a prompt is answered from. -/
def ofCommand (input : String) : Command → Response
  | .help => ⟨0, helpText, ""⟩
  | .misuse message => ⟨2, "", usage ++ "mathexpr: error: " ++ message ++ "\n"⟩
  | .run (some expression) verbose => ofReport verbose (evaluate expression)
  | .run none verbose => (ofReport verbose (evaluate (firstLine input))).after prompt

end Response

/-- The response to arguments and an input. -/
def respond (arguments : List String) (input : String) : Response :=
  .ofCommand input (.ofArguments arguments)

end Calculator
