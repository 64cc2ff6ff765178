import Precedence.Value.Span

/-!
# Tested values

A tested function returns a value or raises an exception. Assertions show and compare values, list their
items and look at classes, and all that they need to know is what these operations give.

## Main definitions

- `Testable` — what assertions ask of values and exceptions
- `Testable.listShown`, `Testable.sameItems` — lists of values
- `Yield` — a value that may also be an iterator

## Design notes

Any values and classes may be tested, also such as a tested program defines itself. What is said about
assertions therefore holds of every `Testable`.
-/

namespace Precedence

/-- What assertions ask of values and exceptions. A list compares its items by `sameItem`, which may hold
of a value and itself even if they differ. Listing the items of a value may raise an exception, in place
of any item or because there are none. -/
class Testable (V : Type) (E : outParam Type) where
  shown : V → String
  differs : V → V → Bool
  sameItem : V → V → Bool
  items : V → Except E (List V)
  text? : V → Option String
  isClass : V → Bool
  isInstance : V → V → Bool
  sameClass : V → V → Bool
  args : V → Except E (List V)
  ofException : E → V
  exceptionArgs : E → List V

namespace Testable

variable {V E : Type} [Testable V E]

/-- The notation of a list of values. -/
def listShown (vs : List V) : String :=
  enclosed "[" (vs.map shown) "]"

/-- Whether two lists have the same items. -/
def sameItems (vs ws : List V) : Bool :=
  vs.length == ws.length && (vs.zip ws).all fun pair => sameItem pair.1 pair.2

end Testable

/-! ### Values and iterators -/

/-- The items of a value, which must be a sequence, a text or a dictionary. -/
def Value.itemsOf : Value → Except Fault (List Value)
  | .text s => .ok (s.toList.map fun c => .text c.toString)
  | .list items => .ok items
  | .tuple items => .ok items
  | .dict entries => .ok (entries.map (·.1))
  | v => .error (.type s!"'{v.className}' object is not iterable")

/-- Whether two values are of one class. An exception shares its class with other exceptions only. -/
def Value.sameClass : Value → Value → Bool
  | .fault c _ _, .fault c' _ _ => c == c'
  | .fault .., _ => false
  | _, .fault .. => false
  | v, w => v.className == w.className

/-- A value, or an iterator that yields items and may then fail. Every iterator has an identity. -/
inductive Yield where
  | value (v : Value)
  | iterator (items : List Value) (failure : Option Fault) (identity : Nat)

namespace Yield

/-- The name of the class. -/
def className : Yield → String
  | value v => v.className
  | iterator .. => "generator"

/-- The notation. -/
def shown : Yield → String
  | value v => v.shown
  | iterator .. => "<iterator>"

/-- Whether two values are equal; an iterator equals itself only. -/
def same : Yield → Yield → Bool
  | value v, value w => v.same w
  | iterator _ _ i, iterator _ _ j => i == j
  | _, _ => false

/-- Whether two values count as one item of a list. -/
def sameItem : Yield → Yield → Bool
  | value v, value w => v.sameItem w
  | v, w => v.same w

/-- The items, or the exception that is raised in place of one. -/
def items : Yield → Except Fault (List Yield)
  | value v => v.itemsOf.map (·.map value)
  | iterator items none _ => .ok (items.map value)
  | iterator _ (some fault) _ => .error fault

/-- The characters, if it is a text. -/
def text? : Yield → Option String
  | value (.text s) => some s
  | _ => none

/-- Whether it is a class. -/
def isClass : Yield → Bool
  | value (.classOf _) => true
  | _ => false

/-- Whether the first value is an instance of the second one. -/
def isInstance : Yield → Yield → Bool
  | value v, value (.classOf cls) => v.isInstance cls
  | _, _ => false

/-- Whether two values are of one class. -/
def sameClass : Yield → Yield → Bool
  | value v, value w => v.sameClass w
  | iterator .., iterator .. => true
  | _, _ => false

/-- The arguments of an exception. -/
def args : Yield → Except Fault (List Yield)
  | value (.fault _ args _) => .ok (args.map value)
  | v => .error (.lacks v.className "args")

end Yield

/-- A raised exception is never compared by its identity. -/
instance : Testable Yield Fault where
  shown := Yield.shown
  differs v w := !v.same w
  sameItem := Yield.sameItem
  items := Yield.items
  text? := Yield.text?
  isClass := Yield.isClass
  isInstance := Yield.isInstance
  sameClass := Yield.sameClass
  args := Yield.args
  ofException fault := .value (.ofFault fault 0)
  exceptionArgs fault := fault.args.map .value

end Precedence
