import Mathlib
import Precedence.Calculator.Evaluation
import Precedence.Proofs.Calculator.Grammar
import Precedence.Proofs.Calculator.Parentheses
import Precedence.Proofs.Outcome

/-!
# Reducing the pairs of an expression

## Main definitions

- `Source.treeReduction`, `Source.valueReduction` — how the pairs of an expression are reduced to a
  tree, and to a value

## Main statements

- `reduction_stateless` — the lines that have been written make no difference
- `outcome_visit_reduction`, `outcome_combine_reduction` — what the callbacks give
- `Source.run_tree` — the tree of a source
-/

namespace Precedence

variable {α : Type}

/-- The lines that have been written make no difference to how pairs are reduced, unless they do so
to the value of a number. -/
theorem reduction_stateless (verbose : Bool) {leaf : Token → CalcM α}
    (node : Token → α → α → Except (CalcFault Token) α)
    (hleaf : ∀ token s t, ((leaf token).run.run s).1 = ((leaf token).run.run t).1) :
    (reduction verbose leaf node).Stateless where
  visit token s t := by
    have h := hleaf token s t
    simp only [reduction, visitOperand]
    split
    · rw [map_eq_pure_bind, run_bind, run_bind]
      revert h
      rcases (leaf token).run.run s with ⟨result, s'⟩
      rcases (leaf token).run.run t with ⟨result', t'⟩
      rintro ⟨⟩
      cases result <;> rfl
    · rfl
    · rfl
  combine left op right s t := by
    simp only [reduction]
    cases node op left right <;> rfl

namespace Source

variable (source : Source) (verbose : Bool)

/-- How the pairs of an expression are reduced to a tree. -/
def treeReduction : Nesting Log (CalcFault Token) Kind Int (Tree String) :=
  reduction verbose (fun token => pure (.leaf (source.tokenText token))) source.treeNode

/-- How the pairs of an expression are reduced to a value. -/
def valueReduction : Nesting Log (CalcFault Token) Kind Int Number :=
  reduction verbose source.numberOf applyToken

theorem treeReduction_stateless : (source.treeReduction verbose).Stateless :=
  reduction_stateless verbose _ fun _ _ _ => rfl

/-- The value of a number does not depend on what has been written. -/
theorem fst_run_numberOf (token : Token) (s t : Log) :
    ((source.numberOf token).run.run s).1 = ((source.numberOf token).run.run t).1 := by
  rw [numberOf]
  cases Number.parse (source.tokenText token) <;> rfl

theorem valueReduction_stateless : (source.valueReduction verbose).Stateless :=
  reduction_stateless verbose _ source.fst_run_numberOf

end Source

/-- What an action gives that goes on from the expression of a source, whatever has been written. -/
theorem run_expression_bind (source : Source) (verbose : Bool) {k : Token → CalcM α}
    {x : Token → Except (CalcFault Token) α} (h : ∀ expr log, ((k expr).run.run log).1 = x expr)
    (log : Log) : ((source.expression verbose >>= k).run.run log).1 = source.parse >>= x := by
  rw [run_bind, ← run_expression source verbose log]
  rcases (source.expression verbose).run.run log with ⟨result, log'⟩
  cases result with
  | error fault => rfl
  | ok expr => exact h expr log'

/-- The tree of a source is that of its expression. -/
theorem Source.run_tree (source : Source) (verbose : Bool) (log : Log) :
    ((source.tree verbose).run.run log).1 = (do
      let expr ← source.parse
      (((source.treeReduction verbose).fresh []).reduceInner expr).outcome) :=
  run_expression_bind source verbose
    (fun expr log => (source.treeReduction_stateless verbose).outcome_reduceInner [] log expr) log

/-- The nesting of trees has a value for every two trees and the operator between them. -/
theorem Source.treeReduction_simple (source : Source) (verbose : Bool) :
    ((source.treeReduction verbose).fresh []).Simple (fun token => Kind.table.find? token.rule)
      (fun left op right => .node (source.tokenText op) left right) where
  silent _ _ := rfl
  level? _ := rfl
  combine _ _ _ := rfl
  excess _ := nofun

/-- What looking at a pair gives: the value of a number, and nothing for an expression. -/
theorem outcome_visit_reduction (verbose : Bool) (leaf : Token → CalcM α)
    (node : Token → α → α → Except (CalcFault Token) α) (token : Token) :
    (((reduction verbose leaf node).fresh []).visit token).outcome =
      match token.rule with
      | .num => ((leaf token).run.run []).1.map some
      | .expr => .ok none
      | _ => .error (.expectedOperand token) := by
  simp only [Nesting.fresh, outcome_ofExcept, reduction, visitOperand]
  cases token.rule with
  | num =>
    rw [map_eq_pure_bind, run_bind]
    rcases (leaf token).run.run [] with ⟨result, log⟩
    cases result <;> rfl
  | _ => rfl

/-- What combining two values gives. -/
theorem outcome_combine_reduction (verbose : Bool) (leaf : Token → CalcM α)
    (node : Token → α → α → Except (CalcFault Token) α) (left right : α) (op : Token) :
    (((reduction verbose leaf node).fresh []).combine left op right).outcome = node op left right := by
  simp only [Nesting.fresh, outcome_ofExcept, reduction]
  cases node op left right <;> rfl

theorem Source.outcome_visit_treeReduction (source : Source) (verbose : Bool) (token : Token) :
    (((source.treeReduction verbose).fresh []).visit token).outcome =
      match token.rule with
      | .num => .ok (some (.leaf (source.tokenText token)))
      | .expr => .ok none
      | _ => .error (.expectedOperand token) :=
  outcome_visit_reduction verbose _ source.treeNode token

end Precedence
