import Precedence.Calculator.Evaluation
import Precedence.Console
import Precedence.Options

/-!
# The calculator's command line

The calculator evaluates the expressions on its command line, or every line of its input, and prints
the results and the diagnostics.

## Main definitions

- `calculator` — the command
- `Session` — what has been written, and whether all expressions were accepted
- `Session.run` — evaluate a source
- `runCalculator` — the whole run

## Design notes

A complaint about a misplaced pair is reported, and the run goes on with the next expression. Any
other exception ends the run; so does an integer with too many digits to be written.
-/

namespace Precedence

/-- The option that prints trees. -/
def treeOption : OptionSpec :=
  ⟨["-tree"], false⟩

/-- The option that writes what is being done. -/
def verboseOption : OptionSpec :=
  ⟨["-dbg"], false⟩

/-- The calculator's command. -/
def calculator : Command where
  name := "climb"
  usage := "climb [-h] [-tree] [-dbg] [exprs ...]"
  description :=
    "Evaluate arithmetic expressions using precedence climbing.\n\n"
      ++ "positional arguments:\n"
      ++ "  exprs       expressions to evaluate; if omitted, each line of stdin is\n"
      ++ "              evaluated.\n\n"
      ++ "options:\n"
      ++ "  -h, --help  show this help message and exit\n"
      ++ "  -tree       print the expression structure instead of its value.\n"
      ++ "  -dbg        print lexed pairs and operator reductions to stderr.\n"
  options := [Command.helpOption, treeOption, verboseOption]

/-- What a run has written, and how it ended: with a status, or with an exception. -/
structure Outcome where
  console : Console
  status : Except Fault Nat

/-- What has been written so far, and whether all expressions were accepted. -/
structure Session where
  console : Console
  ok : Bool

/-- The complaint about an integer with too many digits to be written. -/
def tooManyDigits : Fault :=
  .ofMessage "ValueError"
    ("Exceeds the limit (4300 digits) for integer string conversion; "
      ++ "use sys.set_int_max_str_digits() to increase the limit")

/-- The result of a source as text, with the lines written on the way. -/
def Source.resultText (source : Source) (asTree verbose : Bool) :
    Except (CalcFault Token) (Except Fault String) × Log :=
  if asTree then
    let (result, log) := (source.tree verbose).run.run []
    (result.map fun tree => .ok tree.plain, log)
  else
    let (result, log) := (source.evaluate verbose).run.run []
    (result.map fun n => match n.text? with
      | some text => .ok text
      | none => .error tooManyDigits, log)

/-- The diagnostic of a fault. -/
def Source.faultText (source : Source) (fault : CalcFault Token) : Except SpanFault String :=
  let about := match fault.about? with
    | some token => .pair token.toValuePair
    | none => .nothing
  (source.diagnose fault.className fault.reason about).1

namespace Session

/-- Evaluate a source, and print the result or the diagnostic. -/
def run (asTree verbose : Bool) (session : Session) (source : Source) :
    Except Outcome Session :=
  let (result, log) := source.resultText asTree verbose
  let console := log.foldl Console.errLine session.console
  match result with
  | .error fault =>
    if isClimbErrorClass fault.className then
      match source.faultText fault with
      | .ok text => .ok ⟨console.write .err text, false⟩
      | .error fault => .error ⟨console, .error fault.toFault⟩
    else .error ⟨console, .error (fault.toFault Token.toValuePair)⟩
  | .ok (.error fault) => .error ⟨console, .error fault⟩
  | .ok (.ok text) => .ok { session with console := console.outLine text }

/-- Evaluate sources in order. -/
def runAll (asTree verbose : Bool) (session : Session) : List Source → Except Outcome Session
  | [] => .ok session
  | source :: rest => do
    let session ← session.run asTree verbose source
    session.runAll asTree verbose rest

/-- How a run ends once everything has been evaluated. -/
def finish (session : Session) : Outcome :=
  ⟨session.console, .ok (if session.ok then 0 else 1)⟩

end Session

/-- A text with one newline for each carriage return and each carriage return with a newline. -/
def universalNewlines : List Char → List Char
  | '\r' :: '\n' :: rest => '\n' :: universalNewlines rest
  | '\r' :: rest => '\n' :: universalNewlines rest
  | c :: rest => c :: universalNewlines rest
  | [] => []

/-- The lines of a text, each with its newline; only the last may lack it. -/
def splitLines : List Char → List (List Char)
  | [] => []
  | c :: rest =>
    if c = '\n' then [c] :: splitLines rest
    else
      match splitLines rest with
      | [] => [[c]]
      | line :: lines => (c :: line) :: lines

/-- The sources of the lines of the input, but for the blank ones. -/
def inputSources (input : String) : List Source :=
  (splitLines (universalNewlines input.toList)).zipIdx.filterMap fun (line, index) =>
    if isBlankText line then none
    else some (Source.ofString "<stdin>" (String.ofList line) index)

/-- The sources of the expressions on the command line. -/
def argumentSources (exprs : List String) : List Source :=
  exprs.zipIdx.map fun (expr, index) => Source.ofString ("arg" ++ toString index) expr 0

/-- Whether a command line leaves it to the input to give the expressions. -/
def readsInput (args : List String) : Bool :=
  match readOptions calculator.options args with
  | .ok (.run _ exprs) => exprs.isEmpty
  | _ => false

/-- A run of the calculator with the arguments of its command line and its input. -/
def runCalculator (args : List String) (input : String) : Outcome :=
  match readOptions calculator.options args with
  | .error message => ⟨⟨"", calculator.refusal message⟩, .ok 2⟩
  | .ok .help => ⟨⟨calculator.help, ""⟩, .ok 0⟩
  | .ok (.run options exprs) =>
    let sources := if exprs.isEmpty then inputSources input else argumentSources exprs
    let session := (⟨.empty, true⟩ : Session).runAll (options.contains treeOption)
      (options.contains verboseOption) sources
    match session with
    | .error outcome => outcome
    | .ok session => session.finish

end Precedence
