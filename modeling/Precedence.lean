import Precedence.Text.Blank
import Precedence.Text.Casing
import Precedence.Text.Digit
import Precedence.Text.Printable
import Precedence.Text.Word
import Precedence.Buffer
import Precedence.Calculator.Evaluation
import Precedence.Calculator.Session
import Precedence.Lexer.Definition
import Precedence.Main
import Precedence.Testing.Assertion
import Precedence.Testing.Discovery
import Precedence.Testing.Runner
import Precedence.Testing.Signature
import Precedence.Testing.Traceback
import Precedence.Trace
import Precedence.Proofs.Bracketing
import Precedence.Proofs.Coupling
import Precedence.Proofs.Lookahead
import Precedence.Proofs.Asking
import Precedence.Proofs.Towers
import Precedence.Proofs.Likeness
import Precedence.Proofs.Climbing
import Precedence.Proofs.Outline
import Precedence.Proofs.Reference
import Precedence.Proofs.Consumption
import Precedence.Proofs.Postorder
import Precedence.Proofs.Traversal
import Precedence.Proofs.TieBreak
import Precedence.Proofs.Calls
import Precedence.Proofs.Pulling
import Precedence.Proofs.Readings
import Precedence.Proofs.Halting
import Precedence.Proofs.Nested
import Precedence.Proofs.Outcome
import Precedence.Proofs.Recording
import Precedence.Proofs.Announcing
import Precedence.Proofs.Observers
import Precedence.Proofs.Lines
import Precedence.Proofs.Requests
import Precedence.Proofs.Newlines
import Precedence.Proofs.Matching
import Precedence.Proofs.Munching
import Precedence.Proofs.Renumbering
import Precedence.Proofs.Alternatives
import Precedence.Proofs.Surroundings.States
import Precedence.Proofs.Surroundings.Actions
import Precedence.Proofs.Surroundings.Parts
import Precedence.Proofs.Surroundings.Grammar
import Precedence.Proofs.Surroundings.Keeping
import Precedence.Proofs.Surroundings.Following
import Precedence.Proofs.Surroundings.Progress
import Precedence.Proofs.Surroundings.Joining
import Precedence.Proofs.Surroundings.Admitting
import Precedence.Proofs.Surroundings.Leading
import Precedence.Proofs.Construction
import Precedence.Proofs.OneByOne
import Precedence.Proofs.Covering
import Precedence.Proofs.Numerals
import Precedence.Proofs.Calculator.Grammar
import Precedence.Proofs.Calculator.Lexemes
import Precedence.Proofs.Calculator.Parentheses
import Precedence.Proofs.Calculator.Placement
import Precedence.Proofs.Calculator.Reduction
import Precedence.Proofs.Calculator.Agreement
import Precedence.Proofs.Calculator.Complaints
import Precedence.Proofs.Calculator.Structure
import Precedence.Proofs.Calculator.Lexing
import Precedence.Proofs.Calculator.Printing
import Precedence.Proofs.Calculator.Results
import Precedence.Proofs.Calculator.Batch
import Precedence.Proofs.Calculator.Unmatched
import Precedence.Proofs.Calculator.Misplaced
import Precedence.Proofs.Calculator.Verbosity
import Precedence.Proofs.Calculator.Values
import Precedence.Proofs.Testing.Calling
import Precedence.Proofs.Testing.Shortening
import Precedence.Proofs.Testing.Counting
import Precedence.Proofs.Testing.Places
import Precedence.Proofs.Testing.Finding
import Precedence.Proofs.Testing.Stopping
import Precedence.Proofs.Quoting
import Precedence.Proofs.Calculator.Pointing
import Precedence.Proofs.Calculator.InputLines
import Precedence.Proofs.Calculator.Scanning
import Precedence.Proofs.Calculator.Syntax
import Precedence.Proofs.Calculator.Digits
import Precedence.Proofs.Calculator.Exact
import Precedence.Proofs.Quantities
import Precedence.Proofs.Equality
import Precedence.Proofs.Tables
import Precedence.Proofs.Defining
