import Precedence.Buffer
import Precedence.Table

/-!
# Precedence climbing

Climbing reduces a sequence that alternates operands and operators to one value. Operands become
values by one callback, and two values are combined across an operator by another. The climb stops
at the first item that is no operator, and leaves it in the buffer.

## Main definitions

- `Grammar` — which items are operators, and what to throw at a misplaced end
- `Note` — what a climb tells an observer
- `Hooks` — the callbacks
- `Outlook` — how a climb looks at the next operator
- `Outlook.climb`, `climb` — the climb over a buffer

## Design notes

Callbacks act on a state of their own and may fail. A failure ends the climb; the buffer then still
delivers everything after the last item that was taken. The callbacks are told how many outcomes the
feed has delivered so far.

A round of the outer loop takes an operator and an operand, and a round of the inner loop starts a
climb that does so. The number of outcomes that are still to be delivered therefore bounds all loops
and the depth of the recursion, and serves as the fuel. That is so as long as an item has the same
rule whenever it is read. If it has not, then the loops may go on for ever, and the fuel only says
how long they are followed.
-/

namespace Precedence

/-- Which items are operators. `level?` fails if the rule of an item cannot be read. -/
structure Grammar (ε τ : Type) where
  level? : τ → Except ε (Option Level)
  emptyInput : ε
  missingOperand : τ → ε

/-- What a climb tells an observer: that an operator is about to be taken into the right side of the
operator before it, or that the operands of an operator are about to be combined. -/
inductive Note (τ : Type) where
  | absorbing (op : τ) (prec : Nat)
  | reducing (op : τ) (prec : Nat)
deriving Repr

/-- A note about another item. -/
def Note.map {τ τ' : Type} (f : τ → τ') : Note τ → Note τ'
  | absorbing op prec => absorbing (f op) prec
  | reducing op prec => reducing (f op) prec

/-- What an observer writes about a note. -/
def Note.line {τ : Type} (showItem : τ → String) : Note τ → String
  | absorbing op prec => "climb: " ++ showItem op ++ ": absorbing into right side at precedence "
      ++ toString prec ++ "."
  | reducing op prec => "climb: " ++ showItem op ++ ": reducing at precedence " ++ toString prec
      ++ "."

/-- An action on a state that may fail; the state outlives the failure. -/
abbrev Act (σ ε α : Type) := ExceptT ε (StateM σ) α

/-- The callbacks of a climb, which act on a state of type `σ`: the value of an operand, the value
of two values and the operator between them, and an observer. -/
structure Hooks (σ ε τ α : Type) where
  primary : Nat → τ → Act σ ε α
  combine : Nat → α → τ → α → Act σ ε α
  observe : Note τ → StateM σ Unit

/-- The state of a climb: the buffer, and the state of the callbacks. -/
structure ClimbState (σ ε τ : Type) where
  buffer : Buffer ε τ
  user : σ

/-- An action during a climb. -/
abbrev ClimbM (σ ε τ α : Type) := ExceptT ε (StateM (ClimbState σ ε τ)) α

namespace ClimbM

variable {σ ε τ α : Type}

/-- Run a buffer operation. A missing item is no failure. -/
def onBuffer (run : Buffer ε τ → Pull ε τ × Buffer ε τ) : ClimbM σ ε τ (Option τ) := do
  let state ← get
  let (outcome, buffer) := run state.buffer
  set { state with buffer := buffer }
  match outcome with
  | .item a => pure (some a)
  | .ended _ => pure none
  | .fault e => throw e

/-- Take the next item. -/
def next : ClimbM σ ε τ (Option τ) :=
  onBuffer Buffer.next

/-- Look at the next item. -/
def peek : ClimbM σ ε τ (Option τ) :=
  onBuffer Buffer.peek

/-- Run an action of the callbacks, which is told how many outcomes the feed has delivered. -/
def onUser (act : Nat → Act σ ε α) : ClimbM σ ε τ α := do
  let state ← get
  let (result, user) := (act state.buffer.asked).run.run state.user
  set { state with user := user }
  match result with
  | .ok a => pure a
  | .error e => throw e

/-- Look at the next item, and read its level by an action of the callbacks if it is an operator. -/
def peekLevel (level? : τ → Act σ ε (Option Level)) : ClimbM σ ε τ (Option (τ × Level)) := do
  match ← peek with
  | none => pure none
  | some a =>
    let level ← onUser fun _ => level? a
    pure (level.map (a, ·))

/-- Look at the next item, and read its level if it is an operator. -/
def peekOperator (grammar : Grammar ε τ) : ClimbM σ ε τ (Option (τ × Level)) := do
  match ← peek with
  | none => pure none
  | some a =>
    match grammar.level? a with
    | .error e => throw e
    | .ok level => pure (level.map (a, ·))

end ClimbM

/-- How a climb looks at the next operator, and what to throw at a misplaced end. A look may act on
the state of the callbacks, and need not see the same when it is taken again. -/
structure Outlook (σ ε τ : Type) where
  look : ClimbM σ ε τ (Option (τ × Level))
  emptyInput : ε
  missingOperand : τ → ε

/-- The outlook of a grammar, in which an item has the same level whenever it is looked at. -/
def Grammar.outlook {σ ε τ : Type} (grammar : Grammar ε τ) : Outlook σ ε τ where
  look := ClimbM.peekOperator grammar
  emptyInput := grammar.emptyInput
  missingOperand := grammar.missingOperand

namespace Outlook

variable {σ ε τ α : Type} (outlook : Outlook σ ε τ) (hooks : Hooks σ ε τ α)

open ClimbM

mutual

/-- The outer loop: while the next item is an operator of at least the precedence `floor`, take it
and its right operand, let later operators take that operand first, and combine. -/
def climbFrom : Nat → Nat → α → ClimbM σ ε τ α
  | 0, _, left => pure left
  | fuel + 1, floor, left => do
    match ← outlook.look with
    | none => pure left
    | some (op, level) =>
      if level.prec < floor then pure left
      else do
        let _ ← next
        match ← next with
        | none => throw (outlook.missingOperand op)
        | some item =>
          let operand ← onUser (hooks.primary · item)
          let right ← absorb fuel level.prec operand
          onUser fun _ => hooks.observe (.reducing op level.prec)
          let value ← onUser (hooks.combine · left op right)
          climbFrom fuel floor value

/-- The inner loop: while the next operator takes the operand away from an operator of precedence
`prec` to its left, climb from that operator on. -/
def absorb : Nat → Nat → α → ClimbM σ ε τ α
  | 0, _, right => pure right
  | fuel + 1, prec, right => do
    match ← outlook.look with
    | none => pure right
    | some (op, level) =>
      if level.captures prec then do
        onUser fun _ => hooks.observe (.absorbing op level.prec)
        let value ← climbFrom fuel level.prec right
        absorb fuel prec value
      else pure right

end

/-- Reduce the items of the buffer to a value, up to the first that is out of place as an operator.
The fuel depends on what the buffer still is to deliver after the first item. -/
def climb (fuel : Buffer ε τ → Nat) : ClimbM σ ε τ α := do
  match ← next with
  | none => throw outlook.emptyInput
  | some first =>
    let left ← onUser (hooks.primary · first)
    let state ← get
    climbFrom outlook hooks (fuel state.buffer) 0 left

/-- Run a climb over a buffer. -/
def runClimb (fuel : Buffer ε τ → Nat) (buffer : Buffer ε τ) :
    StateM σ (Except ε α × Buffer ε τ) := do
  let (result, state) := (climb outlook hooks fuel).run.run ⟨buffer, ← get⟩
  set state.user
  pure (result, state.buffer)

end Outlook

section Climb

variable {σ ε τ α : Type} (grammar : Grammar ε τ) (hooks : Hooks σ ε τ α)

open ClimbM

/-- The outer loop of a climb. -/
def climbFrom (fuel floor : Nat) (left : α) : ClimbM σ ε τ α :=
  grammar.outlook.climbFrom hooks fuel floor left

/-- The inner loop of a climb. -/
def absorb (fuel prec : Nat) (right : α) : ClimbM σ ε τ α :=
  grammar.outlook.absorb hooks fuel prec right

theorem climbFrom_step (fuel floor : Nat) (left : α) :
    climbFrom grammar hooks (fuel + 1) floor left = (do
      match ← peekOperator grammar with
      | none => pure left
      | some (op, level) =>
        if level.prec < floor then pure left
        else do
          let _ ← next
          match ← next with
          | none => throw (grammar.missingOperand op)
          | some item =>
            let operand ← onUser (hooks.primary · item)
            let right ← absorb grammar hooks fuel level.prec operand
            onUser fun _ => hooks.observe (.reducing op level.prec)
            let value ← onUser (hooks.combine · left op right)
            climbFrom grammar hooks fuel floor value) := by
  rw [climbFrom, Outlook.climbFrom]
  rfl

theorem absorb_step (fuel prec : Nat) (right : α) :
    absorb grammar hooks (fuel + 1) prec right = (do
      match ← peekOperator grammar with
      | none => pure right
      | some (op, level) =>
        if level.captures prec then do
          onUser fun _ => hooks.observe (.absorbing op level.prec)
          let value ← climbFrom grammar hooks fuel level.prec right
          absorb grammar hooks fuel prec value
        else pure right) := by
  rw [absorb, Outlook.absorb]
  rfl

/-- Reduce the items of the buffer to a value, up to the first that is out of place as an
operator. -/
def climb : ClimbM σ ε τ α :=
  grammar.outlook.climb hooks (·.size + 2)

theorem climb_step :
    climb grammar hooks = (do
      match ← next with
      | none => throw grammar.emptyInput
      | some first =>
        let left ← onUser (hooks.primary · first)
        let state ← get
        climbFrom grammar hooks (state.buffer.size + 2) 0 left) := rfl

/-- Run a climb over a buffer. -/
def runClimb (buffer : Buffer ε τ) : StateM σ (Except ε α × Buffer ε τ) :=
  grammar.outlook.runClimb hooks (·.size + 2) buffer

end Climb

end Precedence
