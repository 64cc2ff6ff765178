import Precedence.Climber
import Precedence.Nesting
import Precedence.Source
import Precedence.Tree

/-!
# Traced climbs

A traced climb builds the tree of an expression over tokens of any kind, and records every call of
its callbacks. A plan may make one call of each callback fail.

## Main definitions

- `Call` — a recorded call
- `Trace` — the calls so far, and the lines that an observer has written
- `Plan` — where the texts of tokens come from, and which calls fail
- `traceClimb` — the traced climb over a buffer

## Design notes

A token with inner pairs is climbed in turn with the same callbacks, so its calls stand in the trace
between those of the climb that it belongs to. The trace notes with every call how many outcomes the
feed of the outermost climb has delivered.
-/

namespace Precedence

/-- The two callbacks of a climb. -/
inductive CallKind where
  | primary
  | combine
deriving Repr, DecidableEq

/-- A call of a callback: which one, the token it was told about, and how many outcomes the feed had
delivered. -/
structure Call where
  kind : CallKind
  token : Value
  asked : Nat

/-- The state of a traced climb: the calls and the observer's lines so far, and how many outcomes the
feed had delivered when the outermost climb last called back. -/
structure Trace where
  calls : List Call
  lines : List String
  asked : Nat

/-- The trace before the first call. -/
def Trace.empty : Trace :=
  ⟨[], [], 0⟩

/-- The number of calls of a callback so far. -/
def Trace.count (trace : Trace) (kind : CallKind) : Nat :=
  trace.calls.countP (·.kind == kind)

/-- What the callbacks do: the source that the texts of tokens are taken from, if there is one; how
the rule of a token is read; and for each callback the number of the call that fails, with the
exception that it throws. -/
structure Plan where
  source : Option Source
  access : RuleAccess
  verbose : Bool
  failPrimary : Option (Int × Fault)
  failCombine : Option (Int × Fault)

namespace Plan

/-- An action of the callbacks of a traced climb. -/
abbrev TraceM (α : Type) := Act Trace Fault α

/-- The failure planned for a callback. -/
def failure (plan : Plan) : CallKind → Option (Int × Fault)
  | .primary => plan.failPrimary
  | .combine => plan.failCombine

/-- Record a call, and fail if the plan says so. -/
def record (plan : Plan) (kind : CallKind) (token : Value) : TraceM Unit := do
  let trace ← get
  set { trace with calls := trace.calls ++ [Call.mk kind token trace.asked] }
  match plan.failure kind with
  | some (n, fault) => if n = trace.count kind then throw fault
  | none => pure ()

/-- The text of a token: that of its span in the source, or its plain text if there is no source. -/
def text (plan : Plan) (token : Value) : TraceM String :=
  match plan.source, token with
  | some source, .pair p => pure (source.pairText p)
  | some _, v => throw (.lacks v.className "slc")
  | none, v => pure v.plain

/-- Call back for an operand. A token with inner pairs has no value of its own. -/
def visit (plan : Plan) (token : Value) : TraceM (Option (Tree String)) := do
  plan.record .primary token
  match token with
  | .pair (.mk _ _ _ (_ :: _)) => pure none
  | v => return some (.leaf (← plan.text v))

/-- Call back for two values and the operator between them. -/
def combine (plan : Plan) (left : Tree String) (op : Value) (right : Tree String) :
    TraceM (Tree String) := do
  plan.record .combine op
  return .node (← plan.text op) left right

/-- Write a line about a note. -/
def observe (plan : Plan) (note : Note Value) : StateM Trace Unit :=
  if plan.verbose then
    modify fun trace => { trace with lines := trace.lines ++ [note.line Value.plain] }
  else pure ()

/-- Note how many outcomes the feed has delivered. -/
def noteAsked (asked : Nat) : TraceM Unit :=
  modify fun trace => { trace with asked := asked }

end Plan

/-- The complaint about an operator without a right operand. -/
def missingOperand (op : Value) : Fault :=
  ⟨"MissingOperand", [.text "infix operator must be followed by a primary expression", op]⟩

/-- The complaint that there is nothing to climb. -/
def emptyInput : Fault :=
  ⟨"EmptyInput", [.text "precedence climbing requires a non-empty sequence of pairs", .nothing]⟩

/-- How a traced climb reduces nested pairs. It does not mind pairs that are left over. -/
def Plan.nesting (plan : Plan) (climber : Climber Value) :
    Nesting Trace Fault Value Bound (Tree String) where
  level? p := climber.level? plan.access.reader (.pair p)
  visit p := plan.visit (.pair p)
  combine left op right := plan.combine left (.pair op) right
  observe note := plan.observe (note.map .pair)
  emptyInner _ := Precedence.emptyInput
  emptyInput := Precedence.emptyInput
  missingOperand op := Precedence.missingOperand (.pair op)
  excess _ := .ok ()

/-- The value of an operand of the outermost climb. -/
def Plan.operand (plan : Plan) (climber : Climber Value) : Value → Plan.TraceM (Tree String)
  | .pair p => (plan.nesting climber).reduce p
  | v => do
    plan.record .primary v
    return .leaf (← plan.text v)

/-- The grammar of the tokens of a traced climb. -/
def Plan.grammar (plan : Plan) (climber : Climber Value) : Grammar Fault Value where
  level? := climber.level? plan.access.reader
  emptyInput := emptyInput
  missingOperand := missingOperand

/-- The callbacks of a traced climb. -/
def Plan.hooks (plan : Plan) (climber : Climber Value) :
    Hooks Trace Fault Value (Tree String) where
  primary asked token := do
    Plan.noteAsked asked
    plan.operand climber token
  combine asked left op right := do
    Plan.noteAsked asked
    plan.combine left op right
  observe := plan.observe

/-- A traced climb over a buffer. -/
def traceClimb (plan : Plan) (climber : Climber Value) (buffer : Buffer Fault Value) :
    StateM Trace (Except Fault (Tree String) × Buffer Fault Value) :=
  runClimb (plan.grammar climber) (plan.hooks climber) buffer

end Precedence
