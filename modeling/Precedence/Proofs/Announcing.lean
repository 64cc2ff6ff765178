import Mathlib
import Precedence.Proofs.Nested

/-!
# Combinations that are announced

An observer is told that two values are about to be combined right before the callback that combines
them. It makes no difference if that callback tells the observer itself, with the precedence that the
grammar gives to the operator.

## Main definitions

- `announce` — tell an observer that the operands of an operator are about to be combined, and do so
- `Hooks.announcing`, `Nesting.announcing` — callbacks that announce what they combine

## Main statements

- `climb_announcing` — a climb with such callbacks is the same
- `reduceInner_announcing` — and so is the reduction of nested pairs
-/

namespace Precedence

variable {σ ε τ ρ β α : Type}

/-- Tell an observer that the operands of an operator are about to be combined, and combine them. An
item that is no operator has no operands, and gives what is on its left. -/
def announce (level? : τ → Except ε (Option Level)) (observe : Note τ → StateM σ Unit) (op : τ)
    (left : α) (combine : Act σ ε α) : Act σ ε α :=
  match level? op with
  | .ok (some level) => do
    let _ ← (observe (.reducing op level.prec) : Act σ ε Unit)
    combine
  | _ => pure left

/-- An observer that is told about operators only that are about to be absorbed. -/
def absorbingOnly (observe : Note τ → StateM σ Unit) : Note τ → StateM σ Unit
  | .absorbing op prec => observe (.absorbing op prec)
  | .reducing _ _ => pure ()

/-- Callbacks that announce what they combine. -/
def Hooks.announcing (grammar : Grammar ε τ) (hooks : Hooks σ ε τ α) : Hooks σ ε τ α where
  primary := hooks.primary
  combine n left op right :=
    announce grammar.level? hooks.observe op left (hooks.combine n left op right)
  observe := absorbingOnly hooks.observe

open ClimbM

/-- What follows a look at the next operator has to be known for operators of the grammar only. -/
theorem peekOperator_bind_congr {γ : Type} {grammar : Grammar ε τ}
    {k₁ k₂ : Option (τ × Level) → ClimbM σ ε τ γ} (hnone : k₁ none = k₂ none)
    (hsome : ∀ op level, grammar.level? op = .ok (some level) →
      k₁ (some (op, level)) = k₂ (some (op, level))) :
    peekOperator grammar >>= k₁ = peekOperator grammar >>= k₂ := by
  rw [peekOperator, bind_assoc, bind_assoc]
  refine bind_congr fun seen => ?_
  cases seen with
  | none => simpa only [pure_bind] using hnone
  | some op =>
    dsimp only
    cases hop : grammar.level? op with
    | error e => rfl
    | ok level =>
      cases level with
      | none => simpa only [Option.map_none, pure_bind] using hnone
      | some level => simpa only [Option.map_some, pure_bind] using hsome op level hop

/-- Two actions of the callbacks, one after the other. -/
theorem onUser_bind {γ δ : Type} (act : Nat → Act σ ε γ) (next : Nat → Act σ ε δ) :
    (onUser act >>= fun _ => onUser next : ClimbM σ ε τ δ) =
      onUser fun n => act n >>= fun _ => next n := by
  refine act_ext fun s => ?_
  rw [run_bind, run_onUser, run_onUser, run_bind]
  rcases (act s.buffer.asked).run.run s.user with ⟨result, user⟩
  cases result with
  | ok _ => exact run_onUser next _
  | error e => rfl

variable {grammar : Grammar ε τ} {hooks : Hooks σ ε τ α}

/-- The callback that combines two values tells the observer first, which is told no more by the
climb. -/
theorem combineStep_announcing (hooks : Hooks σ ε τ α) {op : τ} {level : Level}
    (h : grammar.level? op = .ok (some level)) (left right : α) :
    combineStep (hooks.announcing grammar) op level.prec left right =
      combineStep hooks op level.prec left right := by
  refine act_ext fun s => ?_
  have hsilent : (noteStep (hooks.announcing grammar) (.reducing op level.prec) :
      ClimbM σ ε τ Unit).run.run s = (.ok (), s) := by
    rw [noteStep, run_onUser]
    rfl
  rw [combineStep, run_bind_ok hsilent, combineStep, noteStep, onUser_bind]
  simp only [Hooks.announcing, announce, h]

/-- The loops of a climb whose callbacks announce what they combine are the same. -/
theorem climbFrom_absorb_announcing (fuel : Nat) :
    (∀ floor left, climbFrom grammar (hooks.announcing grammar) fuel floor left =
      climbFrom grammar hooks fuel floor left) ∧
    ∀ prec right, absorb grammar (hooks.announcing grammar) fuel prec right =
      absorb grammar hooks fuel prec right := by
  induction fuel with
  | zero => exact ⟨fun _ _ => rfl, fun _ _ => rfl⟩
  | succ fuel ih =>
    obtain ⟨ihFrom, ihAbsorb⟩ := ih
    constructor
    · intro floor left
      rw [climbFrom_step, climbFrom_step]
      refine peekOperator_bind_congr rfl fun op level hop => ?_
      dsimp only
      split
      · rfl
      refine bind_congr fun _ => bind_congr fun taken => ?_
      cases taken with
      | none => rfl
      | some item =>
        refine bind_congr fun operand => ?_
        rw [ihAbsorb]
        refine bind_congr fun right => ?_
        -- The note and the callback after it make one step, which is the same on both sides.
        have hstep := congrArg (· >>= fun value => climbFrom grammar hooks fuel floor value)
          (combineStep_announcing hooks hop left right)
        simp only [combineStep, bind_assoc] at hstep
        simp only [ihFrom]
        exact hstep
    · intro prec right
      rw [absorb_step, absorb_step]
      refine peekOperator_bind_congr rfl fun op level _ => ?_
      simp only [ihFrom, ihAbsorb]
      rfl

/-- A climb whose callbacks announce what they combine is the same. -/
theorem climb_announcing (grammar : Grammar ε τ) (hooks : Hooks σ ε τ α) :
    climb grammar (hooks.announcing grammar) = climb grammar hooks := by
  rw [climb_step, climb_step]
  simp only [climbFrom_absorb_announcing]
  rfl

/-! ### Nested pairs -/

/-- Callbacks of a nesting that announce what they combine. -/
def Nesting.announcing (nesting : Nesting σ ε ρ β α) : Nesting σ ε ρ β α where
  level? := nesting.level?
  visit := nesting.visit
  combine left op right :=
    announce nesting.level? nesting.observe op left (nesting.combine left op right)
  observe := absorbingOnly nesting.observe
  emptyInner := nesting.emptyInner
  emptyInput := nesting.emptyInput
  missingOperand := nesting.missingOperand
  excess := nesting.excess

theorem hooks_announcing (nesting : Nesting σ ε ρ β α) :
    nesting.announcing.hooks = nesting.hooks.announcing nesting.grammar := by
  have hobserve : nesting.announcing.hooks.observe = absorbingOnly nesting.hooks.observe := by
    funext note
    cases note <;> rfl
  exact congrArg (Hooks.mk _ _) hobserve

theorem climbInner_announcing (nesting : Nesting σ ε ρ β α) (parent : Pair ρ β)
    (items : List (Pair ρ β × Act σ ε α)) :
    nesting.announcing.climbInner parent items = nesting.climbInner parent items := by
  refine act_ext fun s => ?_
  rw [run_climbInner, run_climbInner, hooks_announcing]
  show nesting.ending ((climb (nesting.guarded parent)
    (nesting.hooks.announcing (nesting.guarded parent))).run.run ⟨Buffer.ofList items, s⟩) = _
  rw [climb_announcing]

/-- Callbacks that announce what they combine reduce every pair in the same way. -/
theorem reduce_announcing (nesting : Nesting σ ε ρ β α) (pair : Pair ρ β) :
    nesting.announcing.reduce pair = nesting.reduce pair := by
  induction pair using Pair.induction with
  | step pair ih =>
    have hitems : nesting.announcing.reducers pair.inner = nesting.reducers pair.inner := by
      rw [Nesting.reducers_eq_map, Nesting.reducers_eq_map]
      exact List.map_congr_left fun inner hinner => by rw [ih inner hinner]
    rw [Nesting.reduce_eq, Nesting.reduce_eq, hitems]
    refine bind_congr fun value => ?_
    cases value with
    | some value => rfl
    | none => exact climbInner_announcing nesting pair _

theorem reduceInner_announcing (nesting : Nesting σ ε ρ β α) (pair : Pair ρ β) :
    nesting.announcing.reduceInner pair = nesting.reduceInner pair := by
  have hitems : nesting.announcing.reducers pair.inner = nesting.reducers pair.inner := by
    rw [Nesting.reducers_eq_map, Nesting.reducers_eq_map]
    exact List.map_congr_left fun inner _ => by rw [reduce_announcing]
  rw [Nesting.reduceInner, Nesting.reduceInner, hitems, climbInner_announcing]

end Precedence
