import Precedence.Calculator.Session

/-!
# The calculator

Evaluates the expressions on the command line, or every line of the standard input.
-/

namespace Precedence

/-- The rest of a stream, after what has been read of it. -/
partial def readRest (stream : IO.FS.Stream) (done : String) : IO String := do
  let line ← stream.getLine
  if line.isEmpty then pure done else readRest stream (done ++ line)

end Precedence

/-- Run the calculator, and end with its status. -/
def main (args : List String) : IO UInt32 := do
  let input ←
    if Precedence.readsInput args then Precedence.readRest (← IO.getStdin) "" else pure ""
  let outcome := Precedence.runCalculator args input
  (← IO.getStdout).putStr outcome.console.out
  (← IO.getStderr).putStr outcome.console.err
  match outcome.status with
  | .ok status => pure (UInt32.ofNat status)
  | .error fault => do
    (← IO.getStderr).putStr (fault.className ++ ": " ++ fault.message ++ "\n")
    pure 1
