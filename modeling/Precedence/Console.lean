import Precedence.Value.Text

/-!
# The console

A console collects what is written to the standard output and to the standard error.

## Main definitions

- `Console` — what has been written
- `joined` — items as one text, with separators and an ending
- `Console.print` — write items to one of the two streams
- `Console.outLine`, `Console.errLine` — write one line
-/

namespace Precedence

/-- What has been written to the standard output and the standard error. -/
structure Console where
  out : String
  err : String
deriving Repr, DecidableEq, Inhabited

/-- The two streams of a console. -/
inductive Stream where
  | out
  | err
deriving Repr, DecidableEq

/-- The plain texts of items with a separator between them, and an ending after the last. -/
def joined (separator ending : String) (items : List Value) : String :=
  separator.intercalate (items.map Value.plain) ++ ending

namespace Console

/-- A console that nothing has been written to. -/
def empty : Console :=
  ⟨"", ""⟩

/-- Write a text to a stream. -/
def write (console : Console) (stream : Stream) (text : String) : Console :=
  match stream with
  | .out => { console with out := console.out ++ text }
  | .err => { console with err := console.err ++ text }

/-- Write items to a stream. -/
def print (console : Console) (stream : Stream) (separator ending : String) (items : List Value) :
    Console :=
  console.write stream (joined separator ending items)

/-- Write a line to the standard output. -/
def outLine (console : Console) (line : String) : Console :=
  console.write .out (line ++ "\n")

/-- Write a line to the standard error. -/
def errLine (console : Console) (line : String) : Console :=
  console.write .err (line ++ "\n")

end Console

end Precedence
