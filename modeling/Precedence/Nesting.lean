import Precedence.Climb
import Precedence.Pair

/-!
# Nested expressions

A pair may hold the pairs of an expression of its own. Reducing a pair means to look at it, and
either to take its value as it stands or to climb the pairs in it, which are reduced in turn when the
climb comes to them.

## Main definitions

- `Nesting` — which pairs are operators, which have a value of their own, and how values are combined
- `Nesting.reduce` — the value of a pair
- `Nesting.climbInner` — the value of the pairs in a pair

## Design notes

Every nested pair is put beside the action that reduces it, and the climb over the nested pairs runs
these actions as its callback for operands. The recursion thus follows the nesting of the pairs.
-/

namespace Precedence

/-- A way to reduce nested pairs with actions on a state of type `σ`: the level of a pair that is an
operator; the value of a pair that has one, or nothing for a pair whose inner pairs are to be climbed;
how values are combined, and who observes it; and the complaints about a pair without inner pairs,
about a climb that has nothing to take, about an operator that ends the inner pairs, and about an inner
pair that the climb has left over. -/
structure Nesting (σ ε ρ β α : Type) where
  level? : Pair ρ β → Except ε (Option Level)
  visit : Pair ρ β → Act σ ε (Option α)
  combine : α → Pair ρ β → α → Act σ ε α
  observe : Note (Pair ρ β) → StateM σ Unit
  emptyInner : Pair ρ β → ε
  emptyInput : ε
  missingOperand : Pair ρ β → ε
  excess : Pair ρ β → Except ε Unit

namespace Nesting

variable {σ ε ρ β α : Type}

/-- The grammar of pairs, each beside the action that reduces it. -/
def grammar (nesting : Nesting σ ε ρ β α) : Grammar ε (Pair ρ β × Act σ ε α) where
  level? item := nesting.level? item.1
  emptyInput := nesting.emptyInput
  missingOperand item := nesting.missingOperand item.1

/-- The callbacks of a climb over pairs, each beside the action that reduces it. -/
def hooks (nesting : Nesting σ ε ρ β α) : Hooks σ ε (Pair ρ β × Act σ ε α) α where
  primary _ item := item.2
  combine _ left item right := nesting.combine left item.1 right
  observe note := nesting.observe (note.map (·.1))

/-- Climb the inner pairs of `parent`, and complain if there are none, or about the first that is left
over. -/
def climbInner (nesting : Nesting σ ε ρ β α) (parent : Pair ρ β)
    (items : List (Pair ρ β × Act σ ε α)) : Act σ ε α := do
  if items.isEmpty then throw (nesting.emptyInner parent)
  let (result, rest) ← runClimb nesting.grammar nesting.hooks (Buffer.ofList items)
  match result with
  | .error e => throw e
  | .ok value =>
    match rest.peek.1 with
    | .item item =>
      match nesting.excess item.1 with
      | .error e => throw e
      | .ok _ => pure value
    | _ => pure value

/-- The value of a pair that has already been looked at. -/
def finish (nesting : Nesting σ ε ρ β α) (pair : Pair ρ β)
    (items : List (Pair ρ β × Act σ ε α)) : Option α → Act σ ε α
  | some value => pure value
  | none => nesting.climbInner pair items

mutual

/-- The value of a pair: its own, or that of its inner pairs. -/
def reduce (nesting : Nesting σ ε ρ β α) : Pair ρ β → Act σ ε α
  | .mk rule start stop inner => do
    let value ← nesting.visit (.mk rule start stop inner)
    nesting.finish (.mk rule start stop inner) (nesting.reducers inner) value
termination_by structural pair => pair

/-- Every pair beside the action that reduces it. -/
def reducers (nesting : Nesting σ ε ρ β α) : List (Pair ρ β) → List (Pair ρ β × Act σ ε α)
  | [] => []
  | pair :: rest => (pair, nesting.reduce pair) :: nesting.reducers rest
termination_by structural pairs => pairs

end

/-- The value of the inner pairs of a pair, whatever its own value. -/
def reduceInner (nesting : Nesting σ ε ρ β α) (pair : Pair ρ β) : Act σ ε α :=
  nesting.climbInner pair (nesting.reducers pair.inner)

theorem reduce_eq (nesting : Nesting σ ε ρ β α) (pair : Pair ρ β) :
    nesting.reduce pair = (do
      let value ← nesting.visit pair
      nesting.finish pair (nesting.reducers pair.inner) value) := by
  cases pair
  rfl

theorem reducers_eq_map (nesting : Nesting σ ε ρ β α) (pairs : List (Pair ρ β)) :
    nesting.reducers pairs = pairs.map fun pair => (pair, nesting.reduce pair) := by
  induction pairs with
  | nil => rfl
  | cons pair rest ih => rw [List.map_cons, ← ih]; rfl

end Nesting

end Precedence
