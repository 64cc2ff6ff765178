import Precedence.Climb
import Precedence.Testing.Path
import Precedence.Testing.Testable
import Precedence.Testing.Traceback

/-!
# Assertions

An assertion compares what a tested function does with what is expected of it. A failure is counted
and reported, and does not stop the tests.

## Main definitions

- `Tally` — the counts, and what has been reported
- `Test` — the tested function, its arguments and the place of the assertion
- `Expectation`, `Finding` — what a report says was expected, and what was found instead
- `assertValue`, `assertException`, `assertSequence`, `assertEqual` — the assertions
- `matchesException` — whether an exception is the expected one
- `Tally.summary` — the report at the end
-/

namespace Precedence

/-- The number of assertions, the number of those that failed, and the reports. -/
structure Tally where
  tests : Nat
  failures : Nat
  report : String
deriving Repr

/-- Before the first assertion. -/
def Tally.zero : Tally :=
  ⟨0, 0, ""⟩

/-- The place of an assertion. Its path is shown from the directory `fromDir`, and paths below the
directory `home` are shown with a tilde. -/
structure Site where
  file : String
  line : Int
  workDir : String
  fromDir : String
  home : String

/-- A tested function with its arguments, the place of the assertion, and how the traceback of an
exception is formatted, which may fail. -/
structure Test (V E : Type) where
  name : String
  args : List V
  named : List (String × V)
  site : Site
  format : E → Except E (List String)

/-- An action of an assertion, which may let an exception through. -/
abbrev TestM (E α : Type) := Act Tally E α

/-- The path and the line of a place. A path without a slash is shown below a dot. -/
def Site.shown (site : Site) : String :=
  let path := relativePath site.workDir site.file site.fromDir
  (if path.contains '/' then path else "./" ++ path) ++ ":" ++ toString site.line

/-- What an assertion expects. -/
inductive Expectation (V : Type) where
  | value (v : V)
  | exception (v : V)
  | sequence (items : List V)

/-- What an assertion has found instead of what it expected. -/
inductive Finding (V E : Type) where
  | value (v : V)
  | sequence (items : List V)
  | raised (e : E)

/-- A text filled up with blanks to a width. -/
def padded (width : Nat) (text : String) : String :=
  text ++ String.ofList (List.replicate (width - text.length) ' ')

section

variable {V E : Type} [Testable V E]

namespace Expectation

/-- The label of an expectation. -/
def label : Expectation V → String
  | value _ => "expected value:"
  | exception _ => "expected exception:"
  | sequence _ => "expected sequence:"

/-- The notation of an expectation. -/
def shown : Expectation V → String
  | value v => Testable.shown v
  | exception v => Testable.shown v
  | sequence items => Testable.listShown items

end Expectation

namespace Finding

/-- The label of a finding. -/
def label : Finding V E → String
  | value _ => "returned value:"
  | sequence _ => "returned sequence:"
  | raised _ => "raised exception:"

/-- The notation of a finding. -/
def shown : Finding V E → String
  | value v => Testable.shown v
  | sequence items => Testable.listShown items
  | raised e => Testable.shown (Testable.ofException e : V)

/-- The lines about the arguments of an exception, and an empty one. -/
def details : Finding V E → String
  | raised e =>
    String.join ((Testable.exceptionArgs e : List V).zipIdx.map fun (arg, i) =>
      "    exc arg " ++ toString i ++ ": " ++ Testable.shown arg ++ "\n") ++ "\n"
  | value _ | sequence _ => ""

end Finding

/-- The line of a report about an argument. -/
def argumentLine (name : String) (arg : V) : String :=
  "  arg " ++ name ++ " = " ++ Testable.shown arg ++ "\n"

/-- The line of a report with a label and, in the next column, a notation. -/
def columnLine (width : Nat) (label shown : String) : String :=
  "  " ++ padded width label ++ " " ++ shown ++ "\n"

namespace Test

/-- The first line of a report, after an empty one: the place, and the name of the function. -/
def heading (test : Test V E) : String :=
  "\n" ++ test.site.shown ++ ": utest failure: " ++ test.name ++ "\n"

/-- The lines of a report about the arguments, by position and by name. -/
def argumentText (test : Test V E) : String :=
  String.join (test.args.zipIdx.map fun (arg, i) => argumentLine (toString i) arg) ++
    String.join (test.named.map fun (name, arg) => argumentLine name arg)

/-- The report of a failure up to the traceback. -/
def failureText (test : Test V E) (expectation : Expectation V) (finding : Finding V E) : String :=
  let width := max expectation.label.length finding.label.length
  test.heading ++ test.argumentText ++ columnLine width expectation.label expectation.shown ++
    columnLine width finding.label finding.shown ++ finding.details

/-- The test of a value that no function has returned. It is named by its description. -/
def ofValue (site : Site) (description : V) : Test V E :=
  ⟨Testable.shown description, [], [], site, fun _ => .ok []⟩

end Test

/-- The messages of a traceback, in which paths are shortened. -/
def Site.tracebackText (site : Site) (messages : List String) : String :=
  String.join (messages.map (shortenMessage (slashed site.fromDir) (slashed site.home)))

/-- Whether an exception, or another value, is the expected one: a text must be its notation, a class
one of its classes, and anything else must have the same class and equal arguments. -/
def matchesException (expected actual : V) : Except E Bool :=
  match Testable.text? expected with
  | some text => .ok (text == Testable.shown actual)
  | none =>
    if Testable.isClass expected then .ok (Testable.isInstance actual expected)
    else if Testable.sameClass expected actual then do
      let args ← Testable.args expected
      let args' ← Testable.args actual
      pure (Testable.sameItems args args')
    else .ok false

/-- Count an assertion. -/
def countTest : TestM E Unit :=
  modify fun tally => { tally with tests := tally.tests + 1 }

/-- Count a failure. -/
def countFailure : TestM E Unit :=
  modify fun tally => { tally with failures := tally.failures + 1 }

/-- Report a text. -/
def report (text : String) : TestM E Unit :=
  modify fun tally => { tally with report := tally.report ++ text }

/-- Report the traceback of an exception, unless it cannot be formatted. -/
def reportTraceback (test : Test V E) (e : E) : TestM E Unit := do
  let messages ← MonadExcept.ofExcept (test.format e)
  report (test.site.tracebackText messages)

/-- Count and report a failure. -/
def fail (test : Test V E) (expectation : Expectation V) (finding : Finding V E) : TestM E Unit := do
  countFailure
  report (test.failureText expectation finding)
  match finding with
  | .raised e => reportTraceback test e
  | _ => pure ()
  report "\n"

/-- Let an exception through if it is to end the tests. -/
def letThrough (exit : Bool) (e : E) : TestM E Unit :=
  if exit then throw e else pure ()

/-- The outcome of a tested function, whose exceptions are caught. -/
def observing (outcome : TestM E V) : TestM E (Except E V) :=
  ExceptT.mk (do return .ok (← outcome.run))

/-- The function must return a value equal to the expected one. -/
def assertValue (test : Test V E) (exit : Bool) (expected : V) (outcome : TestM E V) :
    TestM E Unit := do
  countTest
  match ← observing outcome with
  | .error e =>
    fail test (.value expected) (.raised e)
    letThrough exit e
  | .ok v =>
    if Testable.differs expected v then
      fail test (.value expected) (.value v)

/-- The function must raise the expected exception. -/
def assertException (test : Test V E) (exit : Bool) (expected : V) (outcome : TestM E V) :
    TestM E Unit := do
  countTest
  match ← observing outcome with
  | .error e =>
    match matchesException expected (Testable.ofException e) with
    | .error complaint => throw complaint
    | .ok true => pure ()
    | .ok false =>
      fail test (.exception expected) (.raised e)
      letThrough exit e
  | .ok v => fail test (.exception expected) (.value v)

/-- The function must return something whose items equal the expected ones. -/
def assertSequence (test : Test V E) (exit : Bool) (expected : V) (outcome : TestM E V) :
    TestM E Unit := do
  countTest
  match Testable.items expected with
  | .error complaint => throw complaint
  | .ok items =>
    match ← observing outcome with
    | .error e =>
      fail test (.sequence items) (.raised e)
      letThrough exit e
    | .ok v =>
      match Testable.items v with
      | .error e => fail test (.sequence items) (.raised e)
      | .ok actual =>
        unless Testable.sameItems items actual do
          fail test (.sequence items) (.sequence actual)

/-- A value must equal the expected one. -/
def assertEqual (site : Site) (description expected actual : V) : TestM E Unit := do
  countTest
  if Testable.differs expected actual then
    fail (.ofValue site description) (.value expected) (.value actual)

end

/-- The report at the end of all tests and the status that it forces: nothing unless a test has
failed. -/
def Tally.summary (tally : Tally) : Option (String × Nat) :=
  if tally.failures = 0 then none
  else
    some ("\nutest ran: " ++ toString tally.tests ++ "; failed: " ++ toString tally.failures ++ "\n",
      1)

end Precedence
