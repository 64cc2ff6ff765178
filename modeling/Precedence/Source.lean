import Precedence.Value.Span

/-!
# Source texts

A source is a named text that pairs refer to by spans. It answers which line a position is on, and
renders a diagnostic that quotes a line and underlines a span.

## Main definitions

- `Source` — the text, and the newlines found in it so far
- `Source.lineIndex` — the index of the line that a position is on
- `Source.lineStart`, `Source.lineEnd` — where that line starts and ends
- `Source.diagnostic` — a message with the quoted line and the underlined span
- `Source.slice` — the text of a span with any bounds
- `Source.get`, `Source.diagnostics` — texts of, and diagnostics about, values that may lack a span

## Design notes

Positions count characters. A newline is the last character of its line, and the end of a text that
ends with a newline belongs to the last line. The newlines are looked for only up to the positions
asked about; a newline that has been found counts as starting the next line for the index of its own
position.
-/

namespace Precedence

/-- A named text. `firstLine` is the index of its first line, and `newlines` lists the positions of
the newlines found so far. -/
structure Source where
  name : String
  text : Array Char
  firstLine : Int
  newlines : List Nat
deriving Repr, Inhabited

/-- Why a diagnostic cannot be rendered: the position is not one of the text, or a bound of the span
is missing. -/
inductive SpanFault where
  | outside (position : Bound)
  | startUnset
  | stopUnset
deriving Repr, DecidableEq

/-- A fault of a span as an exception. -/
def SpanFault.toFault : SpanFault → Fault
  | outside position => ⟨"IndexError", [position.toValue]⟩
  | startUnset => .type "'<=' not supported between instances of 'int' and 'NoneType'"
  | stopUnset => .type "'<' not supported between instances of 'int' and 'NoneType'"

namespace Source

/-- A source none of whose newlines has been looked for. -/
def ofString (name text : String) (firstLine : Int) : Source :=
  ⟨name, text.toList.toArray, firstLine, []⟩

/-- The number of characters. -/
def length (source : Source) : Nat :=
  source.text.size

/-- Whether the last character is a newline. -/
def endsWithNewline (source : Source) : Bool :=
  source.text.back? == some '\n'

/-- The positions of the newlines from `first` up to, but not including, `pos`. -/
def newlinesBetween (text : Array Char) (first pos : Nat) : List Nat :=
  (List.range' first (pos - first)).filter fun i => text[i]? == some '\n'

/-- Look for newlines up to `pos`, from just after the last one found. -/
def scanTo (source : Source) (pos : Nat) : Source :=
  let first := match source.newlines.getLast? with
    | some last => last + 1
    | none => 0
  { source with newlines := source.newlines ++ newlinesBetween source.text first pos }

/-- The index of the line that a position is on, in a source whose newlines up to the position have
been found. -/
def foundLineIndex (source : Source) (pos : Nat) : Int :=
  if pos = source.length then
    let count := source.firstLine + source.newlines.length
    if source.endsWithNewline then count - 1 else count
  else source.firstLine + (source.newlines.filter (· ≤ pos)).length

/-- The index of the line that a position is on. It is refused for a position outside the text. -/
def lineIndex (source : Source) (pos : Int) : Except SpanFault Int × Source :=
  if 0 ≤ pos && pos ≤ source.length then
    let source := source.scanTo pos.toNat
    (.ok (source.foundLineIndex pos.toNat), source)
  else (.error (.outside (.index pos)), source)

/-- A position as an offset from the start of the text: a negative one counts from the end, and one
outside the text is moved to the nearer end. -/
def clamp (length : Nat) (pos : Int) : Nat :=
  let pos := if pos < 0 then pos + length else pos
  min pos.toNat length

/-- The position after the last newline before `pos`, or the start of the text. -/
def afterLastNewline (text : Array Char) : Nat → Nat
  | 0 => 0
  | pos + 1 => if text[pos]? == some '\n' then pos + 1 else afterLastNewline text pos

/-- The start of the line that a position is on. -/
def lineStart (source : Source) (pos : Int) : Nat :=
  let pos := if pos = source.length && source.endsWithNewline then pos - 1 else pos
  afterLastNewline source.text (clamp source.length pos)

/-- The position after the first newline at or after `pos`, or the end of the text. `fuel` is the
number of characters from `pos` on. -/
def throughNewline (text : Array Char) : Nat → Nat → Nat
  | 0, _ => text.size
  | fuel + 1, pos =>
    if text[pos]? == some '\n' then pos + 1 else throughNewline text fuel (pos + 1)

/-- The end of the line that a position is on. -/
def lineEnd (source : Source) (pos : Int) : Nat :=
  let pos := clamp source.length pos
  throughNewline source.text (source.length - pos) pos

/-- The characters from `first` up to, but not including, `last`. -/
def extract (source : Source) (first last : Nat) : List Char :=
  (source.text.extract first last).toList

/-- What stands under a quoted line: blanks up to the span, keeping tabs, and then a wave as long as
the span, or a mark if the span is empty. -/
def underline (before : List Char) (width : Nat) : List Char :=
  before.map (fun c => if c = '\t' then '\t' else ' ')
    ++ (if width = 0 then ['^'] else List.replicate width '~')

/-- The parts of a diagnostic, for a span on a line. -/
structure Report where
  line : Int
  column : Nat
  width : Nat
  quote : List Char
  under : List Char
deriving Repr

/-- The report about a span that starts at `pos` within the text and ends at `stop` or at the end of
the line, whichever comes first. -/
def report (source : Source) (lineIndex : Int) (pos : Nat) (stop : Int) : Report :=
  let first := source.lineStart pos
  let last := source.lineEnd pos
  let line := source.extract first last
  let width := (min stop last - pos).toNat
  { line := lineIndex + 1
    column := pos - first + 1
    width := width
    quote := if line.getLast? = some '\n' then line.dropLast else line
    under := underline (line.take (pos - first)) width }

/-- A report as text: the position and the message, the quoted line, and the underline. -/
def Report.render (r : Report) (name message : String) : String :=
  let place := toString r.line ++ ":" ++ toString r.column
    ++ (if r.width = 0 then "" else "-" ++ toString (r.column + r.width))
  let gap := if message.isEmpty || message.startsWith "\n" then "" else " "
  let bar := if r.quote.isEmpty then "|" else "| "
  (if name.isEmpty then "" else name ++ ":") ++ place ++ ":" ++ gap ++ message ++ "\n"
    ++ bar ++ String.ofList r.quote ++ "\n  " ++ String.ofList r.under ++ "\n"

/-- The diagnostic about a span. -/
def diagnostic (source : Source) (start stop : Int) (message : String) :
    Except SpanFault String × Source :=
  match source.lineIndex start with
  | (.error fault, source) => (.error fault, source)
  | (.ok index, source) =>
    (.ok ((source.report index start.toNat stop).render source.name message), source)

/-- The index of the line that a bound is on. -/
def lineIndexAt (source : Source) (bound : Bound) : Except SpanFault Int × Source :=
  match bound.index? with
  | none => (.error .startUnset, source)
  | some pos =>
    match source.lineIndex pos with
    | (.error _, source) => (.error (.outside bound), source)
    | (.ok index, source) => (.ok index, source)

/-- The diagnostic about a span with any bounds. A missing end is noticed only after the newlines up
to the start have been looked for. -/
def diagnosticWithin (source : Source) (start stop : Bound) (message : String) :
    Except SpanFault String × Source :=
  match source.lineIndexAt start, start.index?, stop.index? with
  | (.ok _, _), some first, some last => source.diagnostic first last message
  | (.ok _, source), _, _ => (.error .stopUnset, source)
  | (.error fault, source), _, _ => (.error fault, source)

/-- The diagnostic about the end of the text. -/
def diagnosticAtEnd (source : Source) (message : String) : Except SpanFault String × Source :=
  source.diagnostic source.length source.length message

/-- The text of a span whose step is one. -/
def slice (source : Source) (start stop : Bound) : List Char :=
  let first := clamp source.length (start.index?.getD 0)
  let last := clamp source.length (stop.index?.getD source.length)
  source.extract first last

/-- The positions from `pos` on that are `step` apart and lie before `stop` on the way; there are at
most `fuel`. -/
private def steps (step stop : Int) : Nat → Int → List Int
  | 0, _ => []
  | fuel + 1, pos =>
    if (if 0 < step then pos < stop else stop < pos) then
      pos :: steps step stop fuel (pos + step)
    else []

/-- A bound of a backward slice: a position, or minus one for the place before the start. -/
private def clampBackward (length : Nat) (pos : Int) : Int :=
  let pos := if pos < 0 then pos + length else pos
  max (-1) (min pos (length - 1))

/-- The characters of a slice with a step, which must not be zero. -/
def sliceBy (source : Source) (start stop : Bound) (step : Int) : List Char :=
  let n := source.length
  let positions :=
    if 0 < step then
      let first := (start.index?.map fun i => (clamp n i : Int)).getD 0
      let last := (stop.index?.map fun i => (clamp n i : Int)).getD n
      steps step last n first
    else
      let first := (start.index?.map (clampBackward n)).getD (n - 1)
      let last := (stop.index?.map (clampBackward n)).getD (-1)
      steps step last n first
  positions.filterMap fun pos => source.text[pos.toNat]?

/-- The text of a whole pair. -/
def pairText {ρ : Type} (source : Source) (pair : Pair ρ Bound) : String :=
  String.ofList (source.slice pair.start pair.stop)

/-- The text of a slice. -/
def sliceText (source : Source) (start stop step : Bound) : Except Fault String :=
  match step.index? with
  | none => .ok (String.ofList (source.slice start stop))
  | some step =>
    if step = 0 then .error (.ofMessage "ValueError" "slice step cannot be zero")
    else .ok (String.ofList (source.sliceBy start stop step))

/-- The text at an index, of a slice, or of the span of a pair. An index outside the text has an empty
text. -/
def get (source : Source) (v : Value) : Except Fault String :=
  match v.count?, v with
  | some i, _ => .ok (String.ofList (source.slice (.index i) (.index (i + 1))))
  | none, .slice start stop step => source.sliceText start stop step
  | none, .pair p => .ok (source.pairText p)
  | none, v => .error (.lacks v.className "slc")

/-- The diagnostics about several values with spans, up to the first that cannot be rendered. -/
def diagnostics (source : Source) : List (Value × String) → Except Fault String × Source
  | [] => (.ok "", source)
  | (about, message) :: rest =>
    match about.span? with
    | .error fault => (.error fault, source)
    | .ok (start, stop) =>
      match source.diagnosticWithin start stop message with
      | (.error fault, source) => (.error fault.toFault, source)
      | (.ok first, source) =>
        let (others, source) := source.diagnostics rest
        (others.map (first ++ ·), source)

/-- The notation of a source: its name, and how long its text is. -/
def shown (source : Source) : String :=
  "Source(" ++ quoted source.name ++ ", text=<str[" ++ toString source.length ++ "]>)"

end Source

/-- What the message of a misplaced pair starts with, by the class of the complaint. -/
def complaintPrefix (className : String) : String :=
  if isSubclass className "CalcError" then "calc" else "climb"

/-- The message of a diagnostic about a misplaced pair. -/
def complaint (className reason : String) : String :=
  complaintPrefix className ++ " error: " ++ reason ++ "."

/-- The diagnostic of a complaint about a value: it points at the value's span if it is a pair, and
at the end of the text otherwise. -/
def Source.diagnose (source : Source) (className reason : String) (about : Value) :
    Except SpanFault String × Source :=
  let message := complaint className reason
  match about with
  | .pair p => source.diagnosticWithin p.start p.stop message
  | _ => source.diagnosticAtEnd message

end Precedence
