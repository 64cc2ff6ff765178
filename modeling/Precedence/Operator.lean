import Precedence.Value.Span

/-!
# Operators and groups

An infix operator is a rule with an associativity. The operators of a group share one precedence.
Operators and groups are joined into longer groups.

## Main definitions

- `Assoc`, `Operator`, `Group` — the three notions
- `Group.left`, `Group.right` — groups of one associativity
- `Operand` — what may be joined: an operator, a group, or some other value
- `Operand.join` — the group of the operators of two operands, in order
- `OperandExpr` — how an operand is put together
-/

namespace Precedence

/-- On which side an operator groups with its equals. -/
inductive Assoc where
  | left
  | right
deriving Repr, DecidableEq, Inhabited

namespace Assoc

/-- The name of an associativity in lower case. -/
def name : Assoc → String
  | left => "left"
  | right => "right"

/-- The notation of an associativity. -/
def shown : Assoc → String
  | left => "Assoc.Left"
  | right => "Assoc.Right"

end Assoc

/-- An infix operator: the identity of its rule and its associativity. -/
structure Operator (ρ : Type) where
  rule : ρ
  assoc : Assoc
deriving Repr, Inhabited

/-- How a group was made: from operators, or from rules of one associativity. -/
inductive GroupForm where
  | plain
  | left
  | right
deriving Repr, DecidableEq, Inhabited

/-- The class name of a group of a form. -/
def GroupForm.className : GroupForm → String
  | plain => "Group"
  | left => "Left"
  | right => "Right"

/-- An ordered group of operators that share one precedence. -/
structure Group (ρ : Type) where
  form : GroupForm
  ops : List (Operator ρ)
deriving Repr, Inhabited

namespace Group

variable {ρ : Type}

/-- A group of the given operators. -/
def ofOperators (ops : List (Operator ρ)) : Group ρ :=
  ⟨.plain, ops⟩

/-- A group of left-associative operators. -/
def left (rules : List ρ) : Group ρ :=
  ⟨.left, rules.map (⟨·, .left⟩)⟩

/-- A group of right-associative operators. -/
def right (rules : List ρ) : Group ρ :=
  ⟨.right, rules.map (⟨·, .right⟩)⟩

/-- The group with other rules. -/
def map {ρ' : Type} (f : ρ → ρ') (group : Group ρ) : Group ρ' :=
  ⟨group.form, group.ops.map fun op => ⟨f op.rule, op.assoc⟩⟩

/-- The operators of both groups, in order. -/
def append (a b : Group ρ) : Group ρ :=
  ofOperators (a.ops ++ b.ops)

/-- Joining groups is associative. -/
theorem append_assoc (a b c : Group ρ) : (a.append b).append c = a.append (b.append c) := by
  simp [append, ofOperators]

end Group

namespace Operator

/-- The notation of an operator. -/
def shown (op : Operator Value) : String :=
  enclosed "Operator(" [op.rule.shown, op.assoc.shown] ")"

/-- Whether two operators have equal rules and the same associativity. -/
def same (a b : Operator Value) : Bool :=
  a.rule.same b.rule && a.assoc = b.assoc

end Operator

namespace Group

/-- The notation of a group, whatever its form. -/
def shown (group : Group Value) : String :=
  enclosed "Group(" (group.ops.map Operator.shown) ")"

/-- Whether two groups have equal operators in the same order, whatever their forms. -/
def same (a b : Group Value) : Bool :=
  a.ops.length == b.ops.length && (a.ops.zip b.ops).all fun ops => ops.1.same ops.2

end Group

/-- What may be joined to a group: an operator or a group. Any other value is refused in most
places. -/
inductive Operand where
  | operator (op : Operator Value)
  | group (group : Group Value)
  | value (v : Value)
deriving Inhabited

namespace Operand

/-- The class name of an operand. -/
def className : Operand → String
  | operator _ => "Operator"
  | group g => g.form.className
  | value v => v.className

/-- The notation of an operand. -/
def shown : Operand → String
  | operator op => op.shown
  | group g => g.shown
  | value v => v.shown

/-- Whether two operands are equal. -/
def same : Operand → Operand → Bool
  | operator a, operator b => a.same b
  | group a, group b => a.same b
  | value a, value b => a.same b
  | _, _ => false

/-- The rules that an operand's hash depends on, in order. -/
def rules : Operand → List Value
  | operator op => [op.rule]
  | group g => g.ops.map Operator.rule
  | value v => [v]

/-- The hash of an operand exists unless one of its rules cannot be a key. -/
def checkHash (operand : Operand) : Except Fault Unit :=
  operand.rules.forM Value.checkHash

/-- The complaint about two operands that cannot be joined. -/
def cannotJoin (left right : String) : Fault :=
  .type s!"unsupported operand type(s) for |: '{left}' and '{right}'"

/-- Every entry of the second dictionary put into the first. The same key keeps its place. -/
def mergeEntries (entries : List (Value × Value)) : List (Value × Value) → List (Value × Value)
  | [] => entries
  | (key, v) :: rest =>
    let entries :=
      if entries.any (·.1.sameItem key) then
        entries.map fun entry => if entry.1.sameItem key then (entry.1, v) else entry
      else entries ++ [(key, v)]
    mergeEntries entries rest

/-- The integer whose binary digits are those of either integer. For negative ones the complements
are used, whose digits end. -/
def orInt : Int → Int → Int
  | .ofNat m, .ofNat n => .ofNat (m ||| n)
  | .ofNat m, .negSucc n => .negSucc (n - (n &&& m))
  | .negSucc m, .ofNat n => .negSucc (m - (m &&& n))
  | .negSucc m, .negSucc n => .negSucc (m &&& n)

/-- Join two values that are neither operators nor groups. -/
def joinValues (a b : Value) : Except Fault Operand :=
  match a, b with
  | .bool x, .bool y => .ok (.value (.bool (x || y)))
  | .dict xs, .dict ys => .ok (.value (.dict (mergeEntries xs ys)))
  | a, b =>
    match a.count?, b.count? with
    | some i, some j => .ok (.value (.int (orInt i j)))
    | _, _ => .error (cannotJoin a.className b.className)

/-- Join two operands. An operator on the left counts as a group of one. -/
def join : Operand → Operand → Except Fault Operand
  | value a, value b => joinValues a b
  | value a, b => .error (cannotJoin a.className b.className)
  | operator a, b => joinGroup (Group.ofOperators [a]) b
  | group a, b => joinGroup a b
where
  /-- Join an operand to the tail of a group. -/
  joinGroup (a : Group Value) : Operand → Except Fault Operand
    | operator b => .ok (.group (a.append (Group.ofOperators [b])))
    | group b => .ok (.group (a.append b))
    | value b => .error (cannotJoin a.form.className b.className)

end Operand

/-- How an operand is put together: from rules of one associativity, from a rule and an
associativity, from operators, or by joining. -/
inductive OperandExpr where
  | left (rules : List Value)
  | right (rules : List Value)
  | operator (rule : Value) (assoc : Assoc)
  | malformed (rule assoc : Value)
  | group (items : List OperandExpr)
  | union (items : List OperandExpr)
  | value (v : Value)
deriving Inhabited

/-- The operators of a group under construction, all of whose items must be operators. -/
def operatorsOf : List Operand → Except Fault (List (Operator Value))
  | [] => .ok []
  | .operator op :: rest => (operatorsOf rest).map (op :: ·)
  | operand :: _ => .error (.type s!"expected Operator; received {operand.shown}")

mutual

/-- The operand that an expression stands for. -/
def OperandExpr.eval : OperandExpr → Except Fault Operand
  | .left rules => .ok (.group (Group.left rules))
  | .right rules => .ok (.group (Group.right rules))
  | .operator rule assoc => .ok (.operator ⟨rule, assoc⟩)
  | .malformed _ assoc => .error (.type s!"expected Assoc; received {assoc.shown}")
  | .group items => do
    let operands ← evalOperands items
    let ops ← operatorsOf operands
    pure (.group (Group.ofOperators ops))
  | .union items =>
    match items with
    | [] => .ok (.value .nothing)
    | first :: rest => do
      let operand ← first.eval
      joinOperands operand rest
  | .value v => .ok (.value v)
termination_by structural e => e

/-- The operands of a list of expressions. -/
def evalOperands : List OperandExpr → Except Fault (List Operand)
  | [] => .ok []
  | e :: rest => do
    let operand ← e.eval
    let operands ← evalOperands rest
    pure (operand :: operands)
termination_by structural items => items

/-- Join the operands of a list of expressions to an operand, from the left. -/
def joinOperands (operand : Operand) : List OperandExpr → Except Fault Operand
  | [] => .ok operand
  | e :: rest => do
    let right ← e.eval
    let joined ← operand.join right
    joinOperands joined rest
termination_by structural items => items

end

end Precedence
