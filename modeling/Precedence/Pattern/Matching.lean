import Precedence.Pattern.Basic

/-!
# Matching

A match is found by trying the ways to match a pattern in the order of preference, with the rest of
the match as a continuation: the first way for which the rest succeeds is taken.

## Main definitions

- `Subject` — the text to match, and where it counts as ending
- `Progress` — a position, and what the groups have matched so far
- `Pattern.attempt` — match a pattern at a position, and then go on
- `Pattern.matchAt?` — the match at a position
- `Pattern.search?` — the leftmost match within a range

## Design notes

A repetition that has had its least number of rounds starts another round only at a position other
than that at which the last such round started. The starts of these rounds therefore increase, which
bounds their number by the length of the text.
-/

namespace Precedence

/-- A text to match. Characters from `stop` on are not seen; `stop` counts as the end of the text. -/
structure Subject where
  text : Array Char
  stop : Nat
deriving Repr

namespace Subject

/-- The character at a position, unless the text ends there. -/
def get? (subject : Subject) (pos : Nat) : Option Char :=
  if pos < subject.stop then subject.text[pos]? else none

/-- The character before a position. -/
def before? (subject : Subject) : Nat → Option Char
  | 0 => none
  | pos + 1 => subject.text[pos]?

/-- Whether a character that may be missing is a word character. -/
def isWordAt (ascii : Bool) : Option Char → Bool
  | none => false
  | some c => if ascii then isAsciiWord c else isWord c

/-- Whether a place satisfies an anchor. In an empty text no place is a word boundary, and none is
not. -/
def satisfies (subject : Subject) (pos : Nat) : Anchor → Bool
  | .textStart => pos == 0
  | .lineStart => pos == 0 || subject.before? pos == some '\n'
  | .textEnd => pos == subject.stop
  | .lastEnd =>
    pos == subject.stop || (pos + 1 == subject.stop && subject.get? pos == some '\n')
  | .lineEnd => pos == subject.stop || subject.get? pos == some '\n'
  | .boundary ascii negated =>
    subject.stop != 0 &&
      (isWordAt ascii (subject.before? pos) != isWordAt ascii (subject.get? pos)) != negated

end Subject

/-- A position, the spans of the groups that have matched, the latest first, and the group that was
closed last. -/
structure Progress where
  pos : Nat
  groups : List (Nat × Nat × Nat)
  lastClosed : Option Nat
deriving Repr, Inhabited

namespace Progress

/-- The span of a group, if it has matched. -/
def group? (progress : Progress) (index : Nat) : Option (Nat × Nat) :=
  progress.groups.lookup index

/-- Close a group that was opened at `start`. -/
def close (progress : Progress) (index start : Nat) : Progress :=
  { progress with
    groups := (index, start, progress.pos) :: progress.groups
    lastClosed := some index }

end Progress

/-- Goes on from a progress, and answers with the progress at the end of the whole match. -/
abbrev Continuation := Progress → Option Progress

/-- Matches something at a progress, and then goes on. -/
abbrev Matcher := Progress → Continuation → Option Progress

/-- Rounds of a repetition: `required` ones, and then up to `allowed` ones, of which none may start
where the one before it started. At most `fuel` rounds are made. -/
def rounds (lazy : Bool) (body : Matcher) (next : Continuation) :
    (fuel required : Nat) → (allowed last : Option Nat) → Continuation
  | 0, _, _, _, progress => next progress
  | fuel + 1, required + 1, allowed, last, progress =>
    body progress (rounds lazy body next fuel required allowed last)
  | fuel + 1, 0, allowed, last, progress =>
    let another (_ : Unit) : Option Progress :=
      if allowed = some 0 || last = some progress.pos then none
      else body progress
        (rounds lazy body next fuel 0 (allowed.map (· - 1)) (some progress.pos))
    if lazy then (next progress).orElse another
    else (another ()).orElse fun _ => next progress

/-- As many rounds as can be made, each matched by itself; nothing if there are too few. -/
def allRounds (body : Matcher) :
    (fuel required : Nat) → (allowed : Option Nat) → Progress → Option Progress
  | 0, _, _, progress => some progress
  | fuel + 1, required + 1, allowed, progress =>
    (body progress some).bind (allRounds body fuel required allowed)
  | fuel + 1, 0, allowed, progress =>
    if allowed = some 0 then some progress
    else
      match body progress some with
      | none => some progress
      | some after =>
        if after.pos = progress.pos then some after
        else allRounds body fuel 0 (allowed.map (· - 1)) after

/-- Whether the characters at two places are equal under a folding, for `length` places. -/
def sameStretch (subject : Subject) (folding : Folding) (a b : Nat) : (length : Nat) → Bool
  | 0 => true
  | length + 1 =>
    match subject.text[a]?, subject.get? b with
    | some c, some d =>
      folding.lower c.toNat == folding.lower d.toNat
        && sameStretch subject folding (a + 1) (b + 1) length
    | _, _ => false

/-- Go on if a test that leaves the position alone has the wanted outcome. What the groups have
matched in the test is kept unless the test is negated. -/
def afterLook (negated : Bool) (progress : Progress) (next : Continuation) :
    Option Progress → Option Progress
  | some seen => if negated then none else next { seen with pos := progress.pos }
  | none => if negated then next progress else none

namespace Pattern

/-- Match a pattern, and then go on. -/
def attempt (subject : Subject) : Pattern → Matcher
  | empty, progress, next => next progress
  | char set, progress, next =>
    match subject.get? progress.pos with
    | some c => if set.contains c then next { progress with pos := progress.pos + 1 } else none
    | none => none
  | anchor place, progress, next =>
    if subject.satisfies progress.pos place then next progress else none
  | seq a b, progress, next => a.attempt subject progress fun p => b.attempt subject p next
  | alt a b, progress, next =>
    (a.attempt subject progress next).orElse fun _ => b.attempt subject progress next
  | .repeat greed least most body, progress, next =>
    let fuel := least + (subject.stop - progress.pos) + 2
    let allowed := most.map (· - least)
    match greed with
    | .possessive => (allRounds (body.attempt subject) fuel least allowed progress).bind next
    | greed => rounds (greed = .lazy) (body.attempt subject) next fuel least allowed none progress
  | group index body, progress, next =>
    body.attempt subject progress fun p => next (p.close index progress.pos)
  | backref folding index, progress, next =>
    match progress.group? index with
    | none => none
    | some (start, stop) =>
      if sameStretch subject folding start progress.pos (stop - start) then
        next { progress with pos := progress.pos + (stop - start) }
      else none
  | lookAhead negated body, progress, next =>
    afterLook negated progress next (body.attempt subject progress some)
  | lookBehind negated width body, progress, next =>
    afterLook negated progress next
      (if width ≤ progress.pos then
        body.attempt subject { progress with pos := progress.pos - width } some
      else none)
  | atomic body, progress, next => (body.attempt subject progress some).bind next
  | ifGroup index a b, progress, next =>
    if (progress.group? index).isSome then a.attempt subject progress next
    else b.attempt subject progress next

end Pattern

/-- A match: its span, and the group that was closed last. -/
structure Match where
  start : Nat
  stop : Nat
  lastClosed : Option Nat
deriving Repr, DecidableEq

namespace Pattern

/-- The match of a pattern at a position. -/
def matchAt? (pattern : Pattern) (subject : Subject) (pos : Nat) : Option Match :=
  (pattern.attempt subject ⟨pos, [], none⟩ some).map fun p => ⟨pos, p.pos, p.lastClosed⟩

/-- The first match that starts at `pos` or at one of the `count` positions after it. -/
def searchFrom? (pattern : Pattern) (subject : Subject) : (count pos : Nat) → Option Match
  | 0, pos => pattern.matchAt? subject pos
  | count + 1, pos =>
    (pattern.matchAt? subject pos).orElse fun _ => pattern.searchFrom? subject count (pos + 1)

/-- The leftmost match in a text from `pos` up to `stop`. Positions outside the text are moved to its
nearer end. -/
def search? (pattern : Pattern) (text : Array Char) (pos stop : Int) : Option Match :=
  let first := min pos.toNat text.size
  let last := min stop.toNat text.size
  if last < first then none else pattern.searchFrom? ⟨text, last⟩ (last - first) first

end Pattern

end Precedence
