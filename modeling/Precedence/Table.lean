import Precedence.Operator

/-!
# Precedence tables

A table gives each operator's rule a level: its precedence and associativity. The operators of the
first group have precedence one, those of the next group two, and so on.

## Main definitions

- `Level` — a precedence and an associativity
- `Table` — rules and their levels, in the order in which the rules first appeared
- `Table.find?` — the level of a rule
- `Table.ofGroups` — the table of an ordered list of groups
- `TableFault` — why there is no such table

## Design notes

Rules are compared by `RuleKey.same`. When a rule is given a new level it keeps its place, and the
table keeps the rule that came first.
-/

namespace Precedence

/-- How tightly an operator binds, and on which side it groups with its equals. -/
structure Level where
  prec : Nat
  assoc : Assoc
deriving Repr, DecidableEq, Inhabited

/-- Whether an operator of this level takes the operand between itself and an operator of precedence
`prec` to its left. -/
def Level.captures (level : Level) (prec : Nat) : Bool :=
  prec < level.prec || (level.prec == prec && level.assoc == .right)

/-- Rules and their levels. -/
structure Table (ρ : Type) where
  entries : List (ρ × Level)
deriving Repr, Inhabited

/-- Why groups do not make a table: an operator is defined twice, or its rule cannot be a key. -/
inductive TableFault (ρ : Type) where
  | duplicate (rule : ρ) (earlier later : Level)
  | unhashable (className : String)
deriving Repr

namespace Table

variable {ρ : Type} [RuleKey ρ]

/-- The table without operators. -/
def empty : Table ρ :=
  ⟨[]⟩

/-- The level of a rule. -/
def find? (table : Table ρ) (rule : ρ) : Option Level :=
  (table.entries.find? fun entry => RuleKey.same entry.1 rule).map (·.2)

/-- Give a rule a level. -/
def insert (table : Table ρ) (rule : ρ) (level : Level) : Table ρ :=
  if table.entries.any fun entry => RuleKey.same entry.1 rule then
    ⟨table.entries.map fun entry =>
      if RuleKey.same entry.1 rule then (entry.1, level) else entry⟩
  else
    ⟨table.entries ++ [(rule, level)]⟩

/-- Look up a rule, which must be one that can be a key. -/
def lookup (table : Table ρ) (rule : ρ) : Except String (Option Level) :=
  match RuleKey.unhashable? rule with
  | some className => .error className
  | none => .ok (table.find? rule)

/-- Add an operator. Unless `replace` is set, its rule must be new. -/
def add (replace : Bool) (table : Table ρ) (rule : ρ) (level : Level) :
    Except (TableFault ρ) (Table ρ) :=
  match table.lookup rule with
  | .error className => .error (.unhashable className)
  | .ok (some earlier) =>
    if replace then .ok (table.insert rule level) else .error (.duplicate rule earlier level)
  | .ok none => .ok (table.insert rule level)

/-- The operators of some groups, each with its level; the first group has precedence `prec`. -/
def levelled : Nat → List (Group ρ) → List (ρ × Level)
  | _, [] => []
  | prec, group :: rest =>
    group.ops.map (fun op => (op.rule, ⟨prec, op.assoc⟩)) ++ levelled (prec + 1) rest

/-- Add a list of operators in order. -/
def addAll (replace : Bool) (table : Table ρ) : List (ρ × Level) → Except (TableFault ρ) (Table ρ)
  | [] => .ok table
  | (rule, level) :: rest => do
    let table ← table.add replace rule level
    table.addAll replace rest

/-- The table of an ordered list of groups. -/
def ofGroups (replace : Bool) (groups : List (Group ρ)) : Except (TableFault ρ) (Table ρ) :=
  empty.addAll replace (levelled 1 groups)

end Table

end Precedence
