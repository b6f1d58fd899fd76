import Calculator.CommandLine.Response

/-!
# The program

Reads the arguments, prompts for an expression if none is given, and writes the response.
-/

namespace Calculator

/-- Writes a response and gives its exit code. -/
def Response.write (r : Response) : IO UInt32 := do
  IO.print r.out
  (← IO.getStdout).flush
  IO.eprint r.err
  return UInt32.ofNat r.exit

/-- Runs a command. -/
def Command.execute : Command → IO UInt32
  | .run none verbose => do
      IO.print prompt
      (← IO.getStdout).flush
      let input ← (← IO.getStdin).getLine
      (Response.ofReport verbose (evaluate (Response.firstLine input))).write
  | command => (Response.ofCommand "" command).write

end Calculator

/-- The entry point. -/
def main (arguments : List String) : IO UInt32 :=
  (Calculator.Command.ofArguments arguments).execute
