import Precedence.Climb
import Precedence.Value.Span

/-!
# Climbers

A climber is an ordered list of groups together with the table of their operators. It reads the rule
of an item, and looks it up.

## Main definitions

- `Climber` — groups and their table
- `Climber.ofGroups`, `Climber.ofOperands` — build a climber from groups, or from values that have to
  be groups or operators
- `ClimberFault` — why there is no such climber
- `RuleReader`, `ActiveReader` — how the rule of an item is read
- `Climber.level?`, `Climber.activeLevel?` — the level of an item
- `Climber.precedence`, `Climber.assoc`, `Climber.contains` — look up a rule

## Design notes

A rule reader may complain that a key is missing. Such a complaint means that the item is no
operator; every other complaint ends the climb.
-/

namespace Precedence

/-- An ordered list of groups and the table of their operators. -/
structure Climber (ρ : Type) where
  groups : List (Group ρ)
  table : Table ρ
deriving Inhabited

/-- How the rule of an item is read: the reader, which of its complaints only say that a key is
missing, and the complaint about a rule that cannot be a key. -/
structure RuleReader (ε τ ρ : Type) where
  ruleOf : τ → Except ε ρ
  isMissingKey : ε → Bool
  unhashable : String → ε

/-- How the rule of an item is read by an action on the state of the callbacks. -/
structure ActiveReader (σ ε τ ρ : Type) where
  ruleOf : τ → Act σ ε ρ
  isMissingKey : ε → Bool
  unhashable : String → ε

/-- A reader that reads the same rule whenever it reads an item. -/
def RuleReader.active {σ ε τ ρ : Type} (reader : RuleReader ε τ ρ) : ActiveReader σ ε τ ρ where
  ruleOf item := MonadExcept.ofExcept (reader.ruleOf item)
  isMissingKey := reader.isMissingKey
  unhashable := reader.unhashable

/-- Why operands do not make a climber: one is neither a group nor an operator, or their operators
do not make a table. -/
inductive ClimberFault where
  | notGroup (operand : Operand)
  | table (fault : TableFault Value)

/-- A level as a complaint shows it. -/
def Level.shown (level : Level) : String :=
  "precedence " ++ toString level.prec ++ " (" ++ level.assoc.name ++ ")"

/-- A complaint about the definition of a climber. -/
def definitionFault (message : String) : Fault :=
  .ofMessage "PrecClimber.DefinitionError" message

/-- A fault of the operands as an exception. -/
def ClimberFault.toFault : ClimberFault → Fault
  | notGroup operand =>
    definitionFault ("expected Group or Operator; received " ++ operand.shown)
  | table (.duplicate rule earlier later) =>
    definitionFault ("operator " ++ quoted rule.label ++ " is defined more than once: "
      ++ earlier.shown ++ " and " ++ later.shown ++ ".")
  | table (.unhashable className) => .unhashable className

/-- The group that an operand stands for; an operator is a group of one. -/
def Operand.toGroup : Operand → Except ClimberFault (Group Value)
  | operator op => .ok (Group.ofOperators [op])
  | group g => .ok g
  | value v => .error (.notGroup (.value v))

namespace Climber

section

variable {ε τ ρ : Type} [RuleKey ρ]

/-- The climber of an ordered list of groups. -/
def ofGroups (replace : Bool) (groups : List (Group ρ)) : Except (TableFault ρ) (Climber ρ) :=
  (Table.ofGroups replace groups).map (⟨groups, ·⟩)

/-- The level that belongs to the result of reading a rule, or nothing if that is no operator. -/
def levelOf (climber : Climber ρ) (isMissingKey : ε → Bool) (unhashable : String → ε) :
    Except ε ρ → Except ε (Option Level)
  | .error e => if isMissingKey e then .ok none else .error e
  | .ok rule =>
    match climber.table.lookup rule with
    | .error className => .error (unhashable className)
    | .ok level => .ok level

/-- The level of an item, or nothing if the item is no operator. -/
def level? (climber : Climber ρ) (reader : RuleReader ε τ ρ) (item : τ) :
    Except ε (Option Level) :=
  climber.levelOf reader.isMissingKey reader.unhashable (reader.ruleOf item)

/-- The level of an item whose rule is read by an action. -/
def activeLevel? {σ : Type} (climber : Climber ρ) (reader : ActiveReader σ ε τ ρ) (item : τ) :
    Act σ ε (Option Level) := do
  let state ← get
  let (result, state') := (reader.ruleOf item).run.run state
  set state'
  MonadExcept.ofExcept (climber.levelOf reader.isMissingKey reader.unhashable result)

end

/-- The climber of an ordered list of operands. All operands are checked before any operator is put
into the table. -/
def ofOperands (replace : Bool) (operands : List Operand) :
    Except ClimberFault (Climber Value) := do
  let groups ← operands.mapM Operand.toGroup
  (ofGroups replace groups).mapError .table

/-- The notation of a climber. -/
def shown (climber : Climber Value) : String :=
  enclosed "PrecClimber(" (climber.groups.map Group.shown) ")"

/-- Look up a rule that may be missing. -/
def find? (climber : Climber Value) (rule : Value) : Except Fault (Option Level) :=
  (climber.table.lookup rule).mapError Fault.unhashable

/-- Look up a rule that must be there. -/
def find (climber : Climber Value) (rule : Value) : Except Fault Level := do
  match ← climber.find? rule with
  | some level => pure level
  | none => throw ⟨"KeyError", [rule]⟩

/-- The precedence of a rule. -/
def precedence (climber : Climber Value) (rule : Value) : Except Fault Nat :=
  (climber.find rule).map Level.prec

/-- The associativity of a rule. -/
def assoc (climber : Climber Value) (rule : Value) : Except Fault Assoc :=
  (climber.find rule).map Level.assoc

/-- Whether a rule is an operator. -/
def contains (climber : Climber Value) (rule : Value) : Except Fault Bool :=
  (climber.find? rule).map Option.isSome

/-- The complaint about a change to the table, which is read-only. -/
def readOnly (change : String) : Fault :=
  .type s!"'mappingproxy' object does not support item {change}"

end Climber

/-- How the rule of a value is read: its rule, its kind or its start. A reader may also be one that
complains about pairs of a given rule. -/
inductive RuleAccess where
  | rule
  | kind
  | start
  | failing (rule : Value) (complaint : Fault)
deriving Inhabited

namespace RuleAccess

/-- The rule of a pair; other values have none. -/
def ruleOf : Value → Except Fault Value
  | .pair p => .ok p.rule
  | v => .error (.lacks v.className "rule")

/-- The kind of a token; other values have none. -/
def kindOf : Value → Except Fault Value
  | .token k _ => .ok k
  | v => .error (.lacks v.className "kind")

/-- The start of a pair; other values have none. -/
def startOf : Value → Except Fault Value
  | .pair p => p.start.position.map .int
  | v => .error (.lacks v.className "pos")

/-- Read the rule of a value. -/
def read : RuleAccess → Value → Except Fault Value
  | rule, v => ruleOf v
  | kind, v => kindOf v
  | start, v => startOf v
  | failing refused complaint, v =>
    match v with
    | .pair p => if p.rule.same refused then .error complaint else .ok p.rule
    | v => ruleOf v

/-- The reader of an access. -/
def reader (access : RuleAccess) : RuleReader Fault Value Value where
  ruleOf := access.read
  isMissingKey fault := fault.cls.isBelow "KeyError"
  unhashable := Fault.unhashable

end RuleAccess

end Precedence
