import Precedence.Value.Equality
import Precedence.Value.Text

/-!
# Spans of values

Slices and pairs have spans; no other value has one.

## Main definitions

- `Bound.position` — a bound that has to be an index
- `Value.span?` — the span of a value
- `Value.checkHash` — whether a value can be a key
- `frozenAssign`, `frozenDelete` — the complaints about changing a pair
-/

namespace Precedence

/-- A bound as a value. -/
def Bound.toValue : Bound → Value
  | unset => .nothing
  | index i => .int i
  | flag b => .bool b

/-- A bound as an index, which it must be. -/
def Bound.position (bound : Bound) : Except Fault Int :=
  match bound.index? with
  | some i => .ok i
  | none => .error (.type ("int() argument must be a string, a bytes-like object or a real number, "
      ++ "not 'NoneType'"))

/-- The bounds of the span of a value, which must be a slice or a pair. -/
def Value.span? : Value → Except Fault (Bound × Bound)
  | .slice start stop _ => .ok (start, stop)
  | .pair p => .ok (p.start, p.stop)
  | v => .error (.lacks v.className "slc")

/-- The complaint that a value of a class cannot be a key. -/
def Fault.unhashable (className : String) : Fault :=
  .type s!"unhashable type: '{className}'"

/-- A value can be a key unless a part of it may change. -/
def Value.checkHash (v : Value) : Except Fault Unit :=
  match v.unhashable? with
  | some className => .error (.unhashable className)
  | none => .ok ()

/-- A complaint about a change to a pair, which is frozen. -/
private def frozen (message : String) : Fault :=
  .ofMessage "FrozenInstanceError" message

/-- The complaint about an assignment to a field of a pair. -/
def frozenAssign (field : String) : Fault :=
  frozen s!"cannot assign to field '{field}'"

/-- The complaint about the deletion of a field of a pair. -/
def frozenDelete (field : String) : Fault :=
  frozen s!"cannot delete field '{field}'"

end Precedence
