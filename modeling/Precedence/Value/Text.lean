import Precedence.Number.Shortest
import Precedence.Text.Quoted
import Precedence.Value

/-!
# Values as text

A value has two texts: the notation, which tells a text from a number, and the plain text, which
shows a text as it is.

## Main definitions

- `Value.shown` — the notation
- `Value.plain` — the plain text
- `Fault.message` — the plain text of an exception
- `Fault.shown` — the notation of an exception
- `Value.label` — how a rule is named in a pair's text
-/

namespace Precedence

/-- The texts between an opening and a closing mark, with commas between them. -/
def enclosed (opening : String) (items : List String) (closing : String) : String :=
  opening ++ ", ".intercalate items ++ closing

/-- The texts as a tuple: a single one is followed by a comma. -/
def tupleText : List String → String
  | [item] => "(" ++ item ++ ",)"
  | items => enclosed "(" items ")"

/-- The notation of a truth value. -/
def boolText (b : Bool) : String :=
  if b then "True" else "False"

/-- The notation of a bound. -/
def Bound.shown : Bound → String
  | unset => "None"
  | index i => toString i
  | flag b => boolText b

/-- The notation of a slice. -/
def sliceText (start stop step : Bound) : String :=
  enclosed "slice(" [start.shown, stop.shown, step.shown] ")"

/-- A span as a pair's text shows it. -/
def spanText (start stop : Bound) : String :=
  start.shown ++ "-" ++ stop.shown

mutual

/-- The notation of a value. -/
def Value.shown : Value → String
  | .nothing => "None"
  | .bool b => boolText b
  | .int i => toString i
  | .real x _ => floatText x
  | .text s => quoted s
  | .list items => enclosed "[" (shownItems items) "]"
  | .tuple items => tupleText (shownItems items)
  | .dict entries => enclosed "\x7b" (shownEntries entries) "\x7d"
  | .slice start stop step => sliceText start stop step
  | .member enumeration name number => "<" ++ enumeration ++ "." ++ name ++ ": "
      ++ toString number ++ ">"
  | .pair p => shownPair p
  | .token kind _ => "Tok(" ++ kind.shown ++ ")"
  | .fault cls args _ => enclosed (cls.name ++ "(") (shownItems args) ")"
  | .classOf cls => cls.shown
termination_by structural v => v

/-- The notations of the items of a sequence. -/
def shownItems : List Value → List String
  | [] => []
  | v :: rest => v.shown :: shownItems rest
termination_by structural items => items

/-- The notations of the entries of a dictionary. -/
def shownEntries : List (Value × Value) → List String
  | [] => []
  | (key, v) :: rest => (key.shown ++ ": " ++ v.shown) :: shownEntries rest
termination_by structural entries => entries

/-- The notation of a pair. -/
def shownPair : ValuePair → String
  | .mk rule start stop inner => "Pair(rule=" ++ rule.shown ++ ", slc="
      ++ sliceText start stop .unset ++ ", inner=" ++ tupleText (shownPairs inner) ++ ")"
termination_by structural p => p

/-- The notations of nested pairs. -/
def shownPairs : List ValuePair → List String
  | [] => []
  | p :: rest => shownPair p :: shownPairs rest
termination_by structural pairs => pairs

end

mutual

/-- The plain text of a value: a text as it is, a pair as its span and rule, an exception as its
message, and the notation of every other value. -/
def Value.plain : Value → String
  | .text s => s
  | .pair p => plainPair p
  | .member enumeration name _ => enumeration ++ "." ++ name
  | .fault cls args _ => faultText cls args
  | .nothing => "None"
  | .bool b => boolText b
  | .int i => toString i
  | .real x _ => floatText x
  | .list items => (Value.list items).shown
  | .tuple items => (Value.tuple items).shown
  | .dict entries => (Value.dict entries).shown
  | .slice start stop step => sliceText start stop step
  | .token kind identity => (Value.token kind identity).shown
  | .classOf cls => cls.shown
termination_by structural v => v

/-- The plain text of a pair: its span, a colon, and the rule, an enumeration's member by its
name alone. -/
def plainPair : ValuePair → String
  | .mk rule start stop _ => spanText start stop ++ ":" ++
      (match rule with
        | .member _ name _ => name
        | rule => rule.plain)
termination_by structural p => p

/-- The message of an exception. A missing key is shown in its notation. A misplaced pair follows
its message. The two arguments of an error of the operating system are a number and a text. Of several
arguments the notation of their tuple is the message. -/
def faultText (cls : ObjectClass) : List Value → String
  | [] => ""
  | [arg] => if cls.isBelow "KeyError" then arg.shown else arg.plain
  | [first, second] =>
    if cls.isBelow "ClimbError" then
      match second with
      | .nothing => first.plain
      | second => first.plain ++ ": " ++ second.plain
    else if cls.isBelow "OSError" then
      "[Errno " ++ first.plain ++ "] " ++ second.plain
    else tupleText [first.shown, second.shown]
  | args => tupleText (shownItems args)
termination_by structural args => args

end

/-- How a rule is named: an enumeration's member by its name, any other value by its text. -/
def Value.label : Value → String
  | .member _ name _ => name
  | v => v.plain

namespace Fault

/-- The message of an exception. -/
def message (fault : Fault) : String :=
  faultText fault.cls fault.args

/-- The notation of an exception. -/
def shown (fault : Fault) : String :=
  enclosed (fault.cls.name ++ "(") (shownItems fault.args) ")"

end Fault

end Precedence
