import Precedence.Calculator.Expression
import Precedence.Nesting
import Precedence.Tree

/-!
# Values and trees of expressions

The operands of an expression are numbers and nested expressions. Climbing an expression gives its
value, or the tree of its structure.

## Main definitions

- `Op.apply` — the arithmetic of an operator
- `Source.reduction` — how the pairs of an expression are reduced
- `Source.evaluate` — the value of the expression in a source
- `Source.tree` — its structure
- `climbExpr` — the tree of an expression whose rules are values
-/

namespace Precedence

/-- The arithmetic of an operator. -/
def Op.apply : Op → Number → Number → Except ArithmeticFault Number
  | plus => Number.add
  | minus => Number.sub
  | times => Number.mul
  | divide => Number.div
  | modulo => Number.mod
  | power => Number.pow

/-- Look at an operand of an expression: a number has a value of its own, and a nested expression is
to be climbed. -/
def visitOperand {α : Type} (leaf : Token → CalcM α) (token : Token) : CalcM (Option α) :=
  match token.rule with
  | .num => some <$> leaf token
  | .expr => pure none
  | _ => throw (.expectedOperand token)

/-- How the pairs of an expression are reduced, given the value of a number and that of an operator
with its two sides. -/
def reduction {α : Type} (verbose : Bool) (leaf : Token → CalcM α)
    (node : Token → α → α → Except (CalcFault Token) α) :
    Nesting Log (CalcFault Token) Kind Int α where
  level? token := .ok (Kind.table.find? token.rule)
  visit := visitOperand leaf
  combine left op right := MonadExcept.ofExcept (node op left right)
  observe note := say verbose (note.line Token.plain)
  emptyInner := .emptyExpression
  emptyInput := .emptyInput
  missingOperand := .missingOperand
  excess token := .error (.expectedOperator token)

namespace Source

/-- The value of a number. -/
def numberOf (source : Source) (token : Token) : CalcM Number :=
  MonadExcept.ofExcept (Number.parse (source.tokenText token))

/-- The value of two values and the operator between them. -/
def applyToken (op : Token) (left right : Number) : Except (CalcFault Token) Number :=
  match op.rule with
  | .op o => (o.apply left right).mapError (.arithmetic · op)
  | _ => .error (.notAnOperator op)

/-- The value of the expression in a source. -/
def evaluate (source : Source) (verbose : Bool) : CalcM Number := do
  let expr ← source.expression verbose
  (reduction verbose source.numberOf applyToken).reduceInner expr

/-- The tree of two trees and the operator between them. -/
def treeNode (source : Source) (op : Token) (left right : Tree String) :
    Except (CalcFault Token) (Tree String) :=
  .ok (.node (source.tokenText op) left right)

/-- The structure of the expression in a source. -/
def tree (source : Source) (verbose : Bool) : CalcM (Tree String) := do
  let expr ← source.expression verbose
  (reduction verbose (fun token => pure (.leaf (source.tokenText token))) source.treeNode).reduceInner
    expr

end Source

/-! ### Expressions of values -/

/-- The climber of arithmetic expressions, with names for rules. -/
def calcClimber : Climber Value :=
  let groups := Kind.groups.map (Group.map Kind.toValue)
  ⟨groups, ⟨Table.levelled 1 groups⟩⟩

/-- A fault about a pair of values as an exception. -/
def pairFault (fault : CalcFault ValuePair) : Fault :=
  fault.toFault id

/-- Look at an operand of an expression of values. Unless `anyOperand` is set it must be a number or
an expression. -/
def visitPair (source : Source) (anyOperand : Bool) (p : ValuePair) :
    Act Log Fault (Option (Tree String)) :=
  if p.rule.same Kind.expr.toValue then pure none
  else if anyOperand || p.rule.same Kind.num.toValue then
    pure (some (.leaf (source.pairText p)))
  else throw (pairFault (.expectedOperand p))

/-- How the pairs of an expression of values are reduced to a tree. -/
def pairReduction (source : Source) (anyOperand verbose : Bool) :
    Nesting Log Fault Value Bound (Tree String) where
  level? p := calcClimber.level? RuleAccess.rule.reader (.pair p)
  visit := visitPair source anyOperand
  combine left op right := pure (.node (source.pairText op) left right)
  observe note := say verbose (note.line plainPair)
  emptyInner p := pairFault (.emptyExpression p)
  emptyInput := pairFault .emptyInput
  missingOperand p := pairFault (.missingOperand p)
  excess p := .error (pairFault (.expectedOperator p))

/-- The tree of an expression of values. -/
def climbExpr (source : Source) (anyOperand verbose : Bool) (expr : ValuePair) :
    Act Log Fault (Tree String) :=
  (pairReduction source anyOperand verbose).reduceInner expr

end Precedence
