import Precedence.Class
import Precedence.Pair

/-!
# Values

Rules, tokens and tested results are values of many kinds, compared and shown by common rules.

## Main definitions

- `Bound` — a bound of a span or slice
- `Value` — the values
- `Fault` — an exception: its class and its arguments
- `Value.className`, `Value.cls` — the class of a value
- `Value.isInstance` — whether a value is an instance of a class
- `Fault.ofArgs` — an exception of a class, made with given arguments

## Design notes

Tokens and exceptions equal themselves and nothing else, and a float that is no number does not equal
anything. Such values have an identity, by which one of them is told from another.
-/

namespace Precedence

/-- A bound of a span or slice: left open, an index, or a truth value that stands for one. -/
inductive Bound where
  | unset
  | index (i : Int)
  | flag (b : Bool)
deriving Repr, DecidableEq, Inhabited

/-- The index that a bound stands for. -/
def Bound.index? : Bound → Option Int
  | unset => none
  | index i => some i
  | flag b => some (if b then 1 else 0)

/-- A value. A `member` is one of an enumeration; a `token` has a kind but neither a rule nor a
span; a `fault` is an exception with its arguments, and a `classOf` one of the classes of values. -/
inductive Value where
  | nothing
  | bool (b : Bool)
  | int (i : Int)
  | real (x : Float) (identity : Nat)
  | text (s : String)
  | list (items : List Value)
  | tuple (items : List Value)
  | dict (entries : List (Value × Value))
  | slice (start stop step : Bound)
  | member (enumeration name : String) (number : Int)
  | pair (pair : Pair Value Bound)
  | token (kind : Value) (identity : Nat)
  | fault (cls : ObjectClass) (args : List Value) (identity : Nat)
  | classOf (cls : ObjectClass)
deriving Inhabited

/-- A pair whose rule is a value and whose span may have any bounds. -/
abbrev ValuePair := Pair Value Bound

/-- An exception: its class and its arguments. -/
structure Fault where
  cls : ObjectClass
  args : List Value
deriving Inhabited

namespace Fault

/-- The qualified name of an exception's class. -/
def className (fault : Fault) : String :=
  fault.cls.qualifiedName

/-- An exception with a message for its only argument. -/
def ofMessage (cls : ObjectClass) (message : String) : Fault :=
  ⟨cls, [.text message]⟩

/-- The exception of a class that is made with the given arguments. The complaint about a misplaced
pair always has a pair for its second argument, which is nothing if it is not given. -/
def ofArgs (cls : ObjectClass) (args : List Value) : Fault :=
  match args with
  | [reason] => ⟨cls, if cls.isBelow "ClimbError" then [reason, .nothing] else [reason]⟩
  | args => ⟨cls, args⟩

/-- A complaint about the class of a value. -/
def type (message : String) : Fault :=
  ofMessage "TypeError" message

/-- A complaint that a value lacks an attribute. -/
def lacks (className name : String) : Fault :=
  ofMessage "AttributeError" s!"'{className}' object has no attribute '{name}'"

/-- The signal that there are no more items. -/
def endOfItems : Fault :=
  ⟨"StopIteration", []⟩

/-- Whether an exception is the signal that there are no more items. -/
def isEndOfItems (fault : Fault) : Bool :=
  fault.cls.isBelow "StopIteration"

end Fault

namespace Value

/-- The name of a value's class. -/
def className : Value → String
  | nothing => "NoneType"
  | bool _ => "bool"
  | int _ => "int"
  | real .. => "float"
  | text _ => "str"
  | list _ => "list"
  | tuple _ => "tuple"
  | dict _ => "dict"
  | slice .. => "slice"
  | member enumeration _ _ => enumeration
  | pair _ => "Pair"
  | token .. => "Tok"
  | fault cls .. => cls.name
  | classOf _ => "type"

/-- The class of a value. -/
def cls : Value → ObjectClass
  | fault cls .. => cls
  | v => v.className

/-- Whether a value is an instance of a class. -/
def isInstance (v : Value) (cls : ObjectClass) : Bool :=
  v.cls.isBelow cls

/-- An exception as a value. -/
def ofFault (fault : Fault) (identity : Nat) : Value :=
  .fault fault.cls fault.args identity

end Value

end Precedence
