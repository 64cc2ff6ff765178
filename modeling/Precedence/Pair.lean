/-!
# Pairs

A pair is a token: the identity of a rule, the span of text that the token covers, and the pairs
nested in it, such as the contents of a parenthesized expression.

## Main definitions

- `Pair ρ β` — pairs with rules of type `ρ` and span bounds of type `β`
- `Pair.leaf` — a pair with nothing nested in it
- `Pair.map` — a pair with other rules and bounds
-/

namespace Precedence

/-- A token of a rule, covering the span from `start` to `stop`, with the pairs nested in it. -/
inductive Pair (ρ β : Type) where
  | mk (rule : ρ) (start stop : β) (inner : List (Pair ρ β))
deriving Repr, Inhabited

namespace Pair

variable {ρ ρ' β : Type}

/-- The identity of the rule. -/
def rule : Pair ρ β → ρ
  | mk rule _ _ _ => rule

/-- The start of the span. -/
def start : Pair ρ β → β
  | mk _ start _ _ => start

/-- The end of the span. -/
def stop : Pair ρ β → β
  | mk _ _ stop _ => stop

/-- The nested pairs. -/
def inner : Pair ρ β → List (Pair ρ β)
  | mk _ _ _ inner => inner

/-- A pair with nothing nested in it. -/
def leaf (rule : ρ) (start stop : β) : Pair ρ β :=
  mk rule start stop []

mutual

/-- The pair with other rules and bounds, nested alike. -/
def map {β' : Type} (onRule : ρ → ρ') (onBound : β → β') : Pair ρ β → Pair ρ' β'
  | mk rule start stop inner =>
    mk (onRule rule) (onBound start) (onBound stop) (mapAll onRule onBound inner)
termination_by structural pair => pair

/-- All pairs of a list with other rules and bounds. -/
def mapAll {β' : Type} (onRule : ρ → ρ') (onBound : β → β') : List (Pair ρ β) → List (Pair ρ' β')
  | [] => []
  | pair :: rest => pair.map onRule onBound :: mapAll onRule onBound rest
termination_by structural pairs => pairs

end

@[simp] theorem rule_mk (r : ρ) (a b : β) (i : List (Pair ρ β)) : (mk r a b i).rule = r := rfl
@[simp] theorem start_mk (r : ρ) (a b : β) (i : List (Pair ρ β)) : (mk r a b i).start = a := rfl
@[simp] theorem stop_mk (r : ρ) (a b : β) (i : List (Pair ρ β)) : (mk r a b i).stop = b := rfl
@[simp] theorem inner_mk (r : ρ) (a b : β) (i : List (Pair ρ β)) : (mk r a b i).inner = i := rfl

@[simp] theorem eta (p : Pair ρ β) : mk p.rule p.start p.stop p.inner = p := by
  cases p
  rfl

end Pair

end Precedence
