import Precedence.Value.Text

/-!
# Expression trees

The structure of an expression: texts of operands at the leaves, and at each node the text of an
operator with its left and right side.

## Main definitions

- `Tree` — the trees
- `Tree.fold` — the value of a tree, from values of the leaves and of the nodes
- `Tree.shown`, `Tree.plain` — a tree as text
-/

namespace Precedence

/-- A binary tree with values at the leaves and operators at the nodes. -/
inductive Tree (α : Type) where
  | leaf (a : α)
  | node (op : α) (left right : Tree α)
deriving Repr, DecidableEq, Inhabited

namespace Tree

variable {α β : Type}

/-- The value of a tree. -/
def fold (onLeaf : α → β) (onNode : α → β → β → β) : Tree α → β
  | leaf a => onLeaf a
  | node op left right => onNode op (left.fold onLeaf onNode) (right.fold onLeaf onNode)

/-- The values at the leaves, from left to right. -/
def leaves : Tree α → List α
  | leaf a => [a]
  | node _ left right => left.leaves ++ right.leaves

/-- The operators at the nodes, from left to right. -/
def ops : Tree α → List α
  | leaf _ => []
  | node op left right => left.ops ++ op :: right.ops

/-- The notation of a tree: a leaf as a quoted text, and a node as a tuple of the operator and both
sides. -/
def shown (t : Tree String) : String :=
  t.fold quoted fun op left right => tupleText [quoted op, left, right]

/-- The plain text of a tree: a lone leaf as it is, and otherwise the notation. -/
def plain : Tree String → String
  | leaf text => text
  | t => t.shown

end Tree

end Precedence
