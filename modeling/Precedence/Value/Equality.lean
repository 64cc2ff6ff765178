import Precedence.Number.Binary64
import Precedence.Value

/-!
# Equality of values

Truth values, integers and floats are compared by what they count: the truth values are one and
zero, and a float equals an integer only if it has exactly its value. Sequences are compared item by
item, dictionaries without regard to order. Tokens and exceptions equal only themselves, and a float
that is no number does not even equal itself.

## Main definitions

- `Value.same` — equality
- `Value.sameItem` — whether two values are equal or one and the same, as items and keys are compared
- `Value.unhashable?` — why a value cannot be a key
- `RuleKey` — what a type of rules needs for a table of operators
-/

namespace Precedence

/-- The integer that a truth value or integer counts. -/
def Value.count? : Value → Option Int
  | .bool b => some (if b then 1 else 0)
  | .int i => some i
  | _ => none

/-- Whether two numeric values are equal, or nothing if one is not numeric. -/
def sameNumber? (a b : Value) : Option Bool :=
  match a, b with
  | .real x _, .real y _ => some (x == y)
  | .real x _, b => b.count?.map fun i => floatToInt? x == some i
  | a, .real y _ => a.count?.map fun i => floatToInt? y == some i
  | a, b => a.count?.bind fun i => b.count?.map fun j => i == j

/-- Whether two bounds are equal. -/
def Bound.same (a b : Bound) : Bool :=
  a.index? == b.index?

/-- Whether two values are one and the same float that is no number. -/
def Value.sameNaN : Value → Value → Bool
  | .real x i, .real y j => x != x && y != y && i == j
  | _, _ => false

mutual

/-- Whether two values are equal. -/
def Value.same : Value → Value → Bool
  | .nothing, .nothing => true
  | .text s, .text t => s == t
  | .list xs, .list ys => sameItems xs ys
  | .tuple xs, .tuple ys => sameItems xs ys
  | .dict xs, .dict ys => xs.length == ys.length && entriesWithin xs ys
  | .slice a b c, .slice a' b' c' => a.same a' && b.same b' && c.same c'
  | .member e n _, .member e' n' _ => e == e' && n == n'
  | .pair p, .pair q => samePair p q
  | .token _ i, .token _ j => i == j
  | .fault _ _ i, .fault _ _ j => i == j
  | .classOf c, .classOf c' => c == c'
  | a, b => (sameNumber? a b).getD false
termination_by structural v => v

/-- Whether two sequences have the same items: each is equal to the other one or is that very one. -/
def sameItems : List Value → List Value → Bool
  | [], [] => true
  | x :: xs, y :: ys => (x.sameNaN y || x.same y) && sameItems xs ys
  | _, _ => false
termination_by structural items => items

/-- Whether every entry of the first list has the same key and value as one of the second. -/
def entriesWithin : List (Value × Value) → List (Value × Value) → Bool
  | [], _ => true
  | (key, v) :: rest, entries =>
    (entries.any fun entry => (key.sameNaN entry.1 || key.same entry.1) &&
      (v.sameNaN entry.2 || v.same entry.2)) && entriesWithin rest entries
termination_by structural entries => entries

/-- Whether two pairs have the same rule, span and nested pairs. -/
def samePair : ValuePair → ValuePair → Bool
  | .mk r a b inner, .mk r' a' b' inner' =>
    (r.sameNaN r' || r.same r') && a.same a' && b.same b' && samePairs inner inner'
termination_by structural p => p

/-- Whether two lists hold equal pairs. -/
def samePairs : List ValuePair → List ValuePair → Bool
  | [], [] => true
  | p :: ps, q :: qs => samePair p q && samePairs ps qs
  | _, _ => false
termination_by structural pairs => pairs

end

/-- Whether two values count as one item or one key: they are equal, or one and the same. -/
def Value.sameItem (a b : Value) : Bool :=
  a.sameNaN b || a.same b

mutual

/-- The class of the first part of a value that may change and so cannot be part of a key. -/
def Value.unhashable? : Value → Option String
  | .list _ => some "list"
  | .dict _ => some "dict"
  | .slice .. => some "slice"
  | .tuple items => firstUnhashable? items
  | .pair p => unhashablePair? p
  | _ => none
termination_by structural v => v

/-- The class of the first part of a sequence that cannot be part of a key. -/
def firstUnhashable? : List Value → Option String
  | [] => none
  | v :: rest => v.unhashable?.orElse fun _ => firstUnhashable? rest
termination_by structural items => items

/-- A pair's rule is looked at first; its span can never be part of a key. -/
def unhashablePair? : ValuePair → Option String
  | .mk rule _ _ _ => rule.unhashable?.orElse fun _ => some "slice"
termination_by structural p => p

end

/-- What a type of rules needs to be looked up in a table: when two of them are the same key, and for a
rule that cannot be a key the name of the class that forbids it. -/
class RuleKey (ρ : Type) where
  same : ρ → ρ → Bool
  unhashable? : ρ → Option String

instance : RuleKey Value := ⟨Value.sameItem, Value.unhashable?⟩

instance : RuleKey String := ⟨(· == ·), fun _ => none⟩

end Precedence
