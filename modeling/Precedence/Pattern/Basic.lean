import Precedence.Pattern.CharSet

/-!
# Patterns

A pattern describes stretches of text. Patterns are built from sets of characters and from places
between characters, by sequence, alternation, repetition and grouping, and may look around and refer
to what a group has matched.

## Main definitions

- `Anchor` — a condition on a place between characters
- `Greed` — how often a repetition tries its body first
- `Pattern` — the patterns
- `Width`, `Pattern.width` — how long a match can be
- `Regex` — a pattern with the names of its groups
-/

namespace Precedence

/-- A condition on a place in the text: the start or the end of the text, of a line, or the boundary
of a word. `lastEnd` also holds before a newline that ends the text. -/
inductive Anchor where
  | textStart
  | lineStart
  | textEnd
  | lastEnd
  | lineEnd
  | boundary (ascii negated : Bool)
deriving Repr, DecidableEq

/-- How a repetition proceeds: it tries another round first, or going on first, or takes all rounds
that it can and never gives one back. -/
inductive Greed where
  | greedy
  | lazy
  | possessive
deriving Repr, DecidableEq

/-- A pattern. Groups are numbered from one. A look-behind has a fixed width. -/
inductive Pattern where
  | empty
  | char (set : CharSet)
  | anchor (place : Anchor)
  | seq (first second : Pattern)
  | alt (first second : Pattern)
  | repeat (greed : Greed) (least : Nat) (most : Option Nat) (body : Pattern)
  | group (index : Nat) (body : Pattern)
  | backref (folding : Folding) (index : Nat)
  | lookAhead (negated : Bool) (body : Pattern)
  | lookBehind (negated : Bool) (width : Nat) (body : Pattern)
  | atomic (body : Pattern)
  | ifGroup (index : Nat) (whenSet whenUnset : Pattern)
deriving Repr, DecidableEq, Inhabited

/-- The least and the greatest length of a match; there may be no greatest one. -/
structure Width where
  least : Nat
  most : Option Nat
deriving Repr, DecidableEq, Inhabited

namespace Width

/-- The width of the empty text. -/
def zero : Width :=
  ⟨0, some 0⟩

/-- The width of one character. -/
def one : Width :=
  ⟨1, some 1⟩

/-- The width of a sequence. -/
def add (a b : Width) : Width :=
  ⟨a.least + b.least, a.most.bind fun m => b.most.map (m + ·)⟩

/-- The width of an alternation. -/
def union (a b : Width) : Width :=
  ⟨min a.least b.least, a.most.bind fun m => b.most.map (max m ·)⟩

/-- The width of a repetition. -/
def times (w : Width) (least : Nat) (most : Option Nat) : Width :=
  let top := match w.most, most with
    | some 0, _ => some 0
    | some m, some n => some (m * n)
    | _, _ => none
  ⟨w.least * least, top⟩

/-- The one length of all matches, if there is only one. -/
def fixed? (w : Width) : Option Nat :=
  if w.most = some w.least then some w.least else none

end Width

namespace Pattern

/-- How long the matches of a pattern are, given the widths of the groups that it refers to. -/
def width (groups : Nat → Width) : Pattern → Width
  | empty => .zero
  | char _ => .one
  | anchor _ => .zero
  | seq a b => (a.width groups).add (b.width groups)
  | alt a b => (a.width groups).union (b.width groups)
  | .repeat _ least most body => (body.width groups).times least most
  | group _ body => body.width groups
  | backref _ index => groups index
  | lookAhead _ _ => .zero
  | lookBehind _ _ _ => .zero
  | atomic body => body.width groups
  | ifGroup _ a b => (a.width groups).union (b.width groups)

/-- The patterns of a list, one after the other. -/
def sequence : List Pattern → Pattern
  | [] => empty
  | [p] => p
  | p :: rest => seq p (sequence rest)

/-- One of the patterns of a list, tried in order. -/
def choice : List Pattern → Pattern
  | [] => empty
  | [p] => p
  | p :: rest => alt p (choice rest)

end Pattern

/-- A pattern with the names of its groups, in the order in which the groups open. -/
structure Regex where
  pattern : Pattern
  names : List (String × Nat)
deriving Repr, Inhabited

/-- The name of a group. -/
def Regex.nameOf? (regex : Regex) (index : Nat) : Option String :=
  (regex.names.find? (·.2 == index)).map (·.1)

end Precedence
