import Mathlib
import Precedence.Proofs.Reference
import Precedence.Proofs.Tables
import Precedence.Trace

/-!
# Defining climbers

A climber is defined by expressions for its groups, which list operators from left to right. The index
of an expression gives the precedence of the operators in it. If all rules differ, they are the table as
they are listed, and otherwise the first operator that is defined twice is refused, unless it may be
replaced. A climber whose operators were replaced climbs like one from whose groups all but the last
operators of each rule have been left out.

Rules are called equal if they are the same key. One and the same object is the same key, even if it is
a float that does not equal itself.

## Main definitions

- `OperandExpr.Builds` — the operators that an expression lists
- `Climber.ofExprs` — the climber of expressions
- `listedEntries` — listed operators with their levels
- `lastOnly` — listed operators of which those that are replaced are left out
- `Climber.ClimbsLike` — two climbers whose climbs do not differ

## Main statements

- `OperandExpr.Builds.eval` — expressions that list operators are groups of them
- `Climber.climbsLike_of_lookup` — climbers whose tables agree climb alike
- `ofExprs_listed` — the climbers of expressions
-/

namespace Precedence

/-! ### Expressions -/

/-- The operators that an expression lists, from left to right. A join lists those of its parts, however
they are put in brackets. -/
inductive OperandExpr.Builds : OperandExpr → List (Operator Value) → Prop
  | left (rules) : Builds (.left rules) (rules.map (⟨·, .left⟩))
  | right (rules) : Builds (.right rules) (rules.map (⟨·, .right⟩))
  | operator (rule assoc) : Builds (.operator rule assoc) [⟨rule, assoc⟩]
  | group (ops : List (Operator Value)) :
      Builds (.group (ops.map fun op => .operator op.rule op.assoc)) ops
  | first {e ops} (h : Builds e ops) : Builds (.union [e]) ops
  | join {items e front back} (hfront : Builds (.union items) front) (hback : Builds e back) :
      Builds (.union (items ++ [e])) (front ++ back)

/-- An operand is an operator or a group, and these are its operators. -/
def Operand.Lists (operand : Operand) (ops : List (Operator Value)) : Prop :=
  ∃ group, operand.toGroup = .ok group ∧ group.ops = ops

/-- A join lists the operators of both operands. -/
theorem Operand.Lists.join {a b : Operand} {front back : List (Operator Value)} (ha : a.Lists front)
    (hb : b.Lists back) : ∃ joined, a.join b = .ok joined ∧ joined.Lists (front ++ back) := by
  obtain ⟨g, hg, rfl⟩ := ha
  obtain ⟨g', hg', rfl⟩ := hb
  cases a with
  | value v => cases hg
  | operator | group =>
    cases hg
    cases b with
    | value v => cases hg'
    | operator | group =>
      cases hg'
      exact ⟨_, rfl, _, rfl, rfl⟩

theorem joinOperands_append (operand : Operand) (items items' : List OperandExpr) :
    joinOperands operand (items ++ items') =
      joinOperands operand items >>= (joinOperands · items') := by
  induction items generalizing operand with
  | nil => rfl
  | cons e rest ih =>
    rw [List.cons_append, joinOperands, joinOperands]
    cases e.eval with
    | error fault => rfl
    | ok right =>
      change (operand.join right >>= _) = (operand.join right >>= _) >>= _
      cases operand.join right with
      | error fault => rfl
      | ok joined => exact ih joined

theorem eval_union_append (first : OperandExpr) (rest items : List OperandExpr) :
    (OperandExpr.union (first :: (rest ++ items))).eval =
      (OperandExpr.union (first :: rest)).eval >>= (joinOperands · items) := by
  rw [OperandExpr.eval, OperandExpr.eval]
  cases first.eval with
  | error fault => rfl
  | ok operand => exact joinOperands_append operand rest items

theorem evalOperands_operators (ops : List (Operator Value)) :
    evalOperands (ops.map fun op => .operator op.rule op.assoc) = .ok (ops.map .operator) := by
  induction ops with
  | nil => rfl
  | cons op rest ih =>
    rw [List.map_cons, evalOperands, OperandExpr.eval, ih]
    rfl

theorem operatorsOf_operators (ops : List (Operator Value)) :
    operatorsOf (ops.map .operator) = .ok ops := by
  induction ops with
  | nil => rfl
  | cons op rest ih =>
    rw [List.map_cons, operatorsOf, ih]
    rfl

/-- An expression that lists operators stands for an operator or a group of them. -/
theorem OperandExpr.Builds.eval {e : OperandExpr} {ops : List (Operator Value)} (h : e.Builds ops) :
    ∃ operand, e.eval = .ok operand ∧ operand.Lists ops := by
  induction h with
  | left rules => exact ⟨_, rfl, _, rfl, rfl⟩
  | right rules => exact ⟨_, rfl, _, rfl, rfl⟩
  | operator rule assoc => exact ⟨_, rfl, _, rfl, rfl⟩
  | group ops =>
    refine ⟨.group (Group.ofOperators ops), ?_, _, rfl, rfl⟩
    rw [OperandExpr.eval, evalOperands_operators]
    change (operatorsOf (ops.map .operator) >>= _) = _
    rw [operatorsOf_operators]
    rfl
  | @first e ops _ ih =>
    obtain ⟨operand, heval, hlists⟩ := ih
    refine ⟨operand, ?_, hlists⟩
    rw [OperandExpr.eval, heval]
    rfl
  | @join items e front back _ _ ihFront ihBack =>
    obtain ⟨operand, heval, hfront⟩ := ihFront
    obtain ⟨right, hright, hback⟩ := ihBack
    obtain ⟨joined, hjoined, hlists⟩ := hfront.join hback
    refine ⟨joined, ?_, hlists⟩
    cases items with
    | nil =>
      -- Nothing at all is no operand that lists operators.
      cases heval
      obtain ⟨_, ⟨⟩, _⟩ := hfront
    | cons first rest =>
      rw [List.cons_append, eval_union_append, heval]
      change joinOperands operand [e] = .ok joined
      rw [joinOperands, hright]
      change (operand.join right >>= (joinOperands · [])) = .ok joined
      rw [hjoined]
      rfl

/-- Expressions that list operators stand for groups of them. -/
theorem evalOperands_listed {args : List OperandExpr} {listed : List (List (Operator Value))}
    (h : List.Forall₂ OperandExpr.Builds args listed) :
    ∃ operands groups, evalOperands args = .ok operands ∧
      operands.mapM Operand.toGroup = .ok groups ∧ groups.map Group.ops = listed := by
  induction h with
  | nil => exact ⟨[], [], rfl, rfl, rfl⟩
  | cons harg _ ih =>
    obtain ⟨operand, heval, group, hgroup, rfl⟩ := harg.eval
    obtain ⟨operands, groups, hevals, hgroups, rfl⟩ := ih
    refine ⟨operand :: operands, group :: groups, ?_, ?_, rfl⟩
    · rw [evalOperands, heval, hevals]
      rfl
    · rw [List.mapM_cons, hgroup, hgroups]
      rfl

/-- The climber of expressions, or the complaint about them. -/
def Climber.ofExprs (replace : Bool) (args : List OperandExpr) : Except Fault (Climber Value) := do
  let operands ← evalOperands args
  (Climber.ofOperands replace operands).mapError ClimberFault.toFault

/-! ### Listed operators -/

/-- The operators of the expression at an index, with their levels. -/
def levelOps {ρ : Type} (group : List (Operator ρ) × Nat) : List (ρ × Level) :=
  group.1.map fun op => (op.rule, ⟨1 + group.2, op.assoc⟩)

/-- Listed operators with their levels. -/
def listedEntries {ρ : Type} (listed : List (List (Operator ρ))) : List (ρ × Level) :=
  listed.zipIdx.flatMap levelOps

/-- Listed operators without those that equal one after them. A group that loses all of its operators
stays. -/
def lastOnly {ρ : Type} [RuleKey ρ] : List (List (Operator ρ)) → List (List (Operator ρ))
  | [] => []
  | ops :: rest =>
    Table.lastOnes Operator.rule (rest.flatten.map Operator.rule) ops :: lastOnly rest

theorem levelled_eq {ρ : Type} (groups : List (Group ρ)) (n : Nat) :
    Table.levelled (1 + n) groups = ((groups.map Group.ops).zipIdx n).flatMap levelOps := by
  induction groups generalizing n with
  | nil => rfl
  | cons group rest ih =>
    rw [Table.levelled, add_assoc, ih, List.map_cons, List.zipIdx_cons, List.flatMap_cons]
    rfl

theorem map_levelOps {ρ : Type} (listed : List (List (Operator ρ))) (n : Nat) :
    ((listed.zipIdx n).flatMap levelOps).map (·.1) = listed.flatten.map Operator.rule := by
  induction listed generalizing n with
  | nil => rfl
  | cons ops rest ih =>
    rw [List.zipIdx_cons, List.flatMap_cons, List.map_append, ih, List.flatten_cons, List.map_append,
      levelOps, List.map_map]
    rfl

/-- Leaving operators out of their groups leaves them out of the list. -/
theorem listedEntries_lastOnly {ρ : Type} [RuleKey ρ] (listed : List (List (Operator ρ))) :
    listedEntries (lastOnly listed) = Table.lastOnes (·.1) [] (listedEntries listed) := by
  suffices h : ∀ n, ((lastOnly listed).zipIdx n).flatMap levelOps =
      Table.lastOnes (·.1) [] ((listed.zipIdx n).flatMap levelOps) from h 0
  induction listed with
  | nil => exact fun _ => rfl
  | cons ops rest ih =>
    intro n
    rw [lastOnly, List.zipIdx_cons, List.zipIdx_cons, List.flatMap_cons, List.flatMap_cons, ih,
      Table.lastOnes_append, map_levelOps, List.append_nil, levelOps, levelOps, Table.lastOnes_map]
    rfl

/-- The climber of expressions that list operators. -/
theorem ofExprs_eq {args : List OperandExpr} {listed : List (List (Operator Value))}
    (h : List.Forall₂ OperandExpr.Builds args listed) :
    ∃ groups, ∀ replace, Climber.ofExprs replace args =
      match Table.empty.addAll replace (listedEntries listed) with
      | .ok table => .ok ⟨groups, table⟩
      | .error fault => .error (ClimberFault.table fault).toFault := by
  obtain ⟨operands, groups, hevals, hgroups, rfl⟩ := evalOperands_listed h
  refine ⟨groups, fun replace => ?_⟩
  rw [Climber.ofExprs, hevals]
  change (Climber.ofOperands replace operands).mapError ClimberFault.toFault = _
  rw [Climber.ofOperands, hgroups]
  change ((Climber.ofGroups replace groups).mapError ClimberFault.table).mapError _ = _
  rw [Climber.ofGroups, Table.ofGroups, levelled_eq groups 0, ← listedEntries]
  cases Table.empty.addAll replace (listedEntries (groups.map Group.ops)) <;> rfl

theorem allKeys_listedEntries {ρ : Type} [RuleKey ρ] {listed : List (List (Operator ρ))}
    (h : ∀ ops ∈ listed, ∀ op ∈ ops, RuleKey.unhashable? op.rule = none) :
    Table.AllKeys (listedEntries listed) := by
  intro entry hentry
  have hrule : entry.1 ∈ (listedEntries listed).map (·.1) := List.mem_map_of_mem hentry
  rw [listedEntries, map_levelOps] at hrule
  obtain ⟨op, hop, hentry⟩ := List.mem_map.1 hrule
  obtain ⟨ops, hops, hop⟩ := List.mem_flatten.1 hop
  exact hentry ▸ h ops hops op hop

/-! ### Climbers that climb alike -/

/-- Over every buffer, with all callbacks, the climbs of two climbers have the same outcome and leave
the same items and the same state behind; and so have their traced climbs, which climb nested pairs. -/
def Climber.ClimbsLike (a b : Climber Value) : Prop :=
  (∀ {σ ε τ α : Type} (reader : RuleReader ε τ Value) (emptyInput : ε) (missingOperand : τ → ε)
    (hooks : Hooks σ ε τ α) (buffer : Buffer ε τ),
      runClimb (a.grammar reader emptyInput missingOperand) hooks buffer =
        runClimb (b.grammar reader emptyInput missingOperand) hooks buffer) ∧
    ∀ (plan : Plan) (buffer : Buffer Fault Value),
      traceClimb plan a buffer = traceClimb plan b buffer

/-- Climbers whose tables agree on all rules climb alike. -/
theorem Climber.climbsLike_of_lookup {a b : Climber Value}
    (h : ∀ rule, a.table.lookup rule = b.table.lookup rule) : a.ClimbsLike b := by
  have hlevel {ε τ : Type} (reader : RuleReader ε τ Value) : a.level? reader = b.level? reader := by
    funext item
    rw [Climber.level?, Climber.level?]
    cases reader.ruleOf item with
    | error e => rfl
    | ok rule => simp only [Climber.levelOf, h]
  refine ⟨fun reader emptyInput missingOperand hooks buffer => ?_, fun plan buffer => ?_⟩
  · rw [Climber.grammar, hlevel, Climber.grammar]
  · have hnesting : plan.nesting a = plan.nesting b := by
      simp only [Plan.nesting, hlevel]
    have hhooks : plan.hooks a = plan.hooks b := by
      have hoperand : plan.operand a = plan.operand b := by
        funext v
        cases v <;> simp only [Plan.operand, hnesting]
      simp only [Plan.hooks, hoperand]
    rw [traceClimb, traceClimb, hhooks, Plan.grammar, Plan.grammar, hlevel]

/-! ### Replaced operators -/

theorem allKeys_lastOnes {ρ : Type} [RuleKey ρ] {entries : List (ρ × Level)}
    (h : Table.AllKeys entries) : Table.AllKeys (Table.lastOnes (·.1) [] entries) :=
  fun entry hentry => h entry ((Table.lastOnes_sublist _ _ _).subset hentry)

/-- A table of all entries agrees with the table of the last entries of all rules. -/
theorem lookup_insertAll {ρ : Type} [RuleKey ρ] [LawfulRuleKey ρ] {entries : List (ρ × Level)}
    (h : Table.AllKeys entries) (rule : ρ) :
    (Table.insertAll entries .empty).lookup rule =
      (⟨Table.lastOnes (·.1) [] entries⟩ : Table ρ).lookup rule := by
  have hlast := allKeys_lastOnes h
  rw [Table.lookup, Table.lookup]
  cases hrule : RuleKey.unhashable? rule with
  | some className => rfl
  | none =>
    rw [← (Table.addAll_of_distinct hlast (Table.distinct_lastOnes entries)).2,
      Table.find?_insertAll h hrule, Table.find?_insertAll hlast hrule,
      Table.lastLevel?_lastOnes h hrule]

/-! ### The climbers of expressions -/

/-- The complaint about an operator that is defined twice. -/
def definedTwice (rule : Value) (earlier later : Level) : Fault :=
  .ofMessage "PrecClimber.DefinitionError"
    ("operator " ++ quoted rule.label ++ " is defined more than once: " ++
      "precedence " ++ toString earlier.prec ++ " (" ++ earlier.assoc.name ++ ") and " ++
      "precedence " ++ toString later.prec ++ " (" ++ later.assoc.name ++ ").")

theorem toFault_duplicate (rule : Value) (earlier later : Level) :
    (ClimberFault.table (.duplicate rule earlier later)).toFault =
      definedTwice rule earlier later := by
  simp only [ClimberFault.toFault, definitionFault, definedTwice, Level.shown, String.append_assoc]
  rfl

section

variable {args : List OperandExpr} {listed : List (List (Operator Value))}

/-- Without replacement, the table of distinct operators is what is listed. -/
theorem ofExprs_of_distinct (hargs : List.Forall₂ OperandExpr.Builds args listed)
    (hkeys : Table.AllKeys (listedEntries listed))
    (hdistinct : Table.Distinct (listedEntries listed)) :
    ∃ groups, Climber.ofExprs false args = .ok ⟨groups, ⟨listedEntries listed⟩⟩ := by
  obtain ⟨groups, hgroups⟩ := ofExprs_eq hargs
  exact ⟨groups, by rw [hgroups, (Table.addAll_of_distinct hkeys hdistinct).1]⟩

/-- Without replacement, the first operator is refused whose rule equals one before it. -/
theorem ofExprs_of_not_distinct (hargs : List.Forall₂ OperandExpr.Builds args listed)
    (hkeys : Table.AllKeys (listedEntries listed))
    (hdistinct : ¬Table.Distinct (listedEntries listed)) :
    ∃ before entry after, listedEntries listed = before ++ entry :: after ∧
      Table.Distinct before ∧
      ∃ earlier ∈ before, earlier.1.sameItem entry.1 = true ∧
        Climber.ofExprs false args = .error (definedTwice entry.1 earlier.2 entry.2) := by
  obtain ⟨groups, hgroups⟩ := ofExprs_eq hargs
  obtain ⟨before, entry, after, hparts, hbefore, earlier, hearlier, hsame⟩ :=
    Table.exists_duplicate hdistinct
  refine ⟨before, entry, after, hparts, hbefore, earlier, hearlier, hsame, ?_⟩
  rw [hgroups, hparts, Table.addAll_of_duplicate (hparts ▸ hkeys) hbefore hearlier hsame]
  exact congrArg Except.error (toFault_duplicate _ _ _)

/-- With replacement, all operators are put into the table, and the climber climbs like the one of
expressions for the operators that are the last of their rules. -/
theorem ofExprs_replace (hargs : List.Forall₂ OperandExpr.Builds args listed)
    (hkeys : Table.AllKeys (listedEntries listed)) :
    ∃ climber, Climber.ofExprs true args = .ok climber ∧
      climber.table.entries = Table.overwritten (listedEntries listed) ∧
      ∀ args', List.Forall₂ OperandExpr.Builds args' (lastOnly listed) →
        ∃ climber', Climber.ofExprs false args' = .ok climber' ∧ climber.ClimbsLike climber' := by
  obtain ⟨groups, hgroups⟩ := ofExprs_eq hargs
  refine ⟨⟨groups, Table.insertAll (listedEntries listed) .empty⟩, ?_,
    Table.entries_insertAll hkeys, fun args' hargs' => ?_⟩
  · rw [hgroups, Table.addAll_replace _ hkeys]
  · have hlast := listedEntries_lastOnly listed
    obtain ⟨groups', hgroups'⟩ := ofExprs_of_distinct hargs' (hlast ▸ allKeys_lastOnes hkeys)
      (hlast ▸ Table.distinct_lastOnes _)
    refine ⟨_, hgroups', Climber.climbsLike_of_lookup fun rule => ?_⟩
    rw [hlast]
    exact lookup_insertAll hkeys rule

end

end Precedence
