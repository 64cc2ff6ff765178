/-!
# Lookahead buffers

A feed delivers items one by one; at any place it may pause, as if it had ended, or fail. A buffer
over a feed, or over another buffer, can look at the next item without taking it.

## Main definitions

- `Pull` — the outcome of asking for an item
- `Feed` — what is still to be delivered, and how often the feed was asked with an outcome
- `Buffer` — a buffer over a feed or over another buffer
- `Buffer.next`, `Buffer.peek` — take the next item, or look at it
- `Buffer.peekOr`, `Buffer.hasNext`, `Buffer.drain` — what is built on them
- `Buffer.remaining` — everything that a buffer is still to deliver

## Design notes

A buffer holds at most one item: it looks ahead only when it holds none. Pauses and failures are
never held; they are gone once they have been met.
-/

namespace Precedence

/-- The outcome of asking for an item: the item, the signal that there is none, or a failure. The
signal may carry a detail. -/
inductive Pull (ε τ : Type) where
  | item (a : τ)
  | ended (detail : Option ε)
  | fault (e : ε)
deriving Repr

/-- What a source of items is still to deliver, in order, and how many outcomes it has delivered.
After the last of them it has ended for good. -/
structure Feed (ε τ : Type) where
  outcomes : List (Pull ε τ)
  asked : Nat
deriving Repr

namespace Feed

variable {ε τ : Type}

/-- A feed of items, with neither pauses nor failures. -/
def ofList (items : List τ) : Feed ε τ :=
  ⟨items.map .item, 0⟩

/-- Ask for an item. -/
def next (feed : Feed ε τ) : Pull ε τ × Feed ε τ :=
  match feed.outcomes with
  | [] => (.ended none, feed)
  | outcome :: rest => (outcome, ⟨rest, feed.asked + 1⟩)

/-- The items up to the first pause or failure, which is met too. -/
def drainOutcomes : List (Pull ε τ) → List τ × Option ε × List (Pull ε τ)
  | [] => ([], none, [])
  | .item a :: rest =>
    let (items, failure, left) := drainOutcomes rest
    (a :: items, failure, left)
  | .ended _ :: rest => ([], none, rest)
  | .fault e :: rest => ([], some e, rest)

/-- Ask for items until there is none. -/
def drain (feed : Feed ε τ) : Except ε (List τ) × Feed ε τ :=
  let (items, failure, left) := drainOutcomes feed.outcomes
  let result := match failure with
    | none => .ok items
    | some e => .error e
  (result, ⟨left, feed.asked + (feed.outcomes.length - left.length)⟩)

end Feed

/-- A buffer, holding at most one item, over a feed or over another buffer. -/
inductive Buffer (ε τ : Type) where
  | «over» (held : Option τ) (feed : Feed ε τ)
  | onto (held : Option τ) (source : Buffer ε τ)
deriving Repr

namespace Buffer

variable {ε τ α : Type}

/-- A buffer over a feed, holding nothing. -/
def ofFeed (feed : Feed ε τ) : Buffer ε τ :=
  «over» none feed

/-- A buffer over the items of a list. -/
def ofList (items : List τ) : Buffer ε τ :=
  ofFeed (Feed.ofList items)

/-- `layers` more buffers, each over the one before. -/
def stack (buffer : Buffer ε τ) : Nat → Buffer ε τ
  | 0 => buffer
  | layers + 1 => onto none (buffer.stack layers)

/-- Take the next item. -/
def next : Buffer ε τ → Pull ε τ × Buffer ε τ
  | «over» (some a) feed => (.item a, «over» none feed)
  | «over» none feed => let (outcome, feed) := feed.next; (outcome, «over» none feed)
  | onto (some a) source => (.item a, onto none source)
  | onto none source => let (outcome, source) := source.next; (outcome, onto none source)

/-- Hold an item in the outermost buffer. -/
def hold (a : τ) : Buffer ε τ → Buffer ε τ
  | «over» _ feed => «over» (some a) feed
  | onto _ source => onto (some a) source

/-- Look at the next item. An item that is looked at is held; nothing else is. -/
def peek (buffer : Buffer ε τ) : Pull ε τ × Buffer ε τ :=
  match buffer.next with
  | (.item a, rest) => (.item a, rest.hold a)
  | (outcome, rest) => (outcome, rest)

/-- Look at the next item, or at a default if there is none. The default is not held. -/
def peekOr (default : τ) (buffer : Buffer ε τ) : Except ε τ × Buffer ε τ :=
  match buffer.peek with
  | (.item a, rest) => (.ok a, rest)
  | (.ended _, rest) => (.ok default, rest)
  | (.fault e, rest) => (.error e, rest)

/-- Whether there is a next item. -/
def hasNext (buffer : Buffer ε τ) : Except ε Bool × Buffer ε τ :=
  match buffer.peek with
  | (.item _, rest) => (.ok true, rest)
  | (.ended _, rest) => (.ok false, rest)
  | (.fault e, rest) => (.error e, rest)

/-- Take items until there is none; the items taken before a failure are lost. -/
def drain : Buffer ε τ → Except ε (List τ) × Buffer ε τ
  | «over» held feed =>
    let (result, feed) := feed.drain
    (result.map (held.toList ++ ·), «over» none feed)
  | onto held source =>
    let (result, source) := source.drain
    (result.map (held.toList ++ ·), onto none source)

/-- How many outcomes the feed at the bottom has delivered. -/
def asked : Buffer ε τ → Nat
  | «over» _ feed => feed.asked
  | onto _ source => source.asked

/-- Everything that is still to be delivered: what the buffers hold, from the outermost inwards, and
then what the feed is to deliver. -/
def remaining : Buffer ε τ → List (Pull ε τ)
  | «over» held feed => held.toList.map .item ++ feed.outcomes
  | onto held source => held.toList.map .item ++ source.remaining

/-- The number of outcomes still to be delivered. -/
def size (buffer : Buffer ε τ) : Nat :=
  buffer.remaining.length

/-- What each buffer holds, from the innermost outwards. -/
def heldItems : Buffer ε τ → List (Option τ)
  | «over» held _ => [held]
  | onto held source => source.heldItems ++ [held]

/-- Run an operation on the buffer that lies under `layers` others. -/
def under (layers : Nat) (run : Buffer ε τ → α × Buffer ε τ) (buffer : Buffer ε τ) :
    α × Buffer ε τ :=
  match layers, buffer with
  | layers + 1, onto held source =>
    let (result, source) := source.under layers run
    (result, onto held source)
  | _, buffer => run buffer

/-- The text of a buffer: what it is over, and what it holds. -/
def shown (showItem : τ → String) (showFeed : String) : Buffer ε τ → String
  | «over» held _ => wrap held showFeed
  | onto held source => wrap held (source.shown showItem showFeed)
where
  /-- The text of one buffer over a source. -/
  wrap (held : Option τ) (source : String) : String :=
    let items := (held.map showItem).getD ""
    "Buffer(" ++ source ++ ", buffer=[" ++ items ++ "])"

/-! ### What the operations leave -/

@[simp] theorem remaining_ofList (items : List τ) :
    (ofList items : Buffer ε τ).remaining = items.map .item := rfl

/-- Taking an item takes the first of the remaining outcomes. -/
theorem next_fst (buffer : Buffer ε τ) :
    buffer.next.1 = buffer.remaining.head?.getD (.ended none) := by
  induction buffer with
  | «over» held feed =>
    obtain ⟨outcomes, asked⟩ := feed
    cases held <;> cases outcomes <;> rfl
  | onto held source ih =>
    cases held with
    | none => simpa [next, remaining] using ih
    | some a => rfl

/-- Taking an item leaves the other remaining outcomes. -/
theorem remaining_next (buffer : Buffer ε τ) :
    buffer.next.2.remaining = buffer.remaining.tail := by
  induction buffer with
  | «over» held feed =>
    obtain ⟨outcomes, asked⟩ := feed
    cases held <;> cases outcomes <;> rfl
  | onto held source ih =>
    cases held with
    | none => simpa [next, remaining] using ih
    | some a => rfl

end Buffer

end Precedence
