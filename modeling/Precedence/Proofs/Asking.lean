import Mathlib
import Precedence.Proofs.Lookahead

/-!
# Asking buffers

Buffers may stand over one another, and any of them may be asked at any time to look ahead, to take
an item or to take all of them. What one request does to the items that the buffers hold.

## Main definitions

- `Buffer.Operation`, `Buffer.Request` — what a buffer is asked, and which buffer is asked it
- `Buffer.ask`, `Buffer.after` — the answer to a request, and the buffers after a history of them
- `Buffer.taken`, `Buffer.takenBy` — the items that an operation or a history takes out
- `Buffer.Passes` — how items pass from the feed through the buffers
- `Buffer.Request.Spares` — a request that leaves alone what a buffer has looked at

## Main statements

- `Buffer.passes_ask` — no request loses an item, or moves it past another one
- `Buffer.drain_of_next` — taking all the items is taking the next one again and again
- `Buffer.ask_of_none` — a request that meets no item changes nothing that is held
- `Buffer.ask_drain` — taking all the items empties the buffer that is asked, and the ones under it
- `Buffer.next_after_look` — what has been looked at is taken next

## Design notes

A level is given by the number of the buffers that lie over it.
-/

namespace Precedence

variable {ε τ : Type}

/-- The item that was delivered, if it was an item. -/
def Pull.item? : Pull ε τ → Option τ
  | item a => some a
  | ended _ => none
  | fault _ => none

namespace Buffer

/-! ### Operations and histories -/

/-- What a buffer can be asked. -/
inductive Operation (τ : Type) where
  | peek
  | peekOr (default : τ)
  | hasNext
  | next
  | drain

/-- What a buffer answers. -/
inductive Answer (ε τ : Type) where
  | pull (outcome : Pull ε τ)
  | value (result : Except ε τ)
  | truth (result : Except ε Bool)
  | items (result : Except ε (List τ))

/-- An operation, and how many buffers lie over the one that is asked for it. -/
structure Request (τ : Type) where
  layers : Nat
  operation : Operation τ

/-- A look does not take an item. -/
def Operation.Looks : Operation τ → Prop
  | peek | peekOr _ | hasNext => True
  | next | drain => False

theorem Operation.looks_or (operation : Operation τ) :
    operation.Looks ∨ operation = .next ∨ operation = .drain := by
  cases operation <;> simp [Looks]

/-- The request is a look at this level, or asks a level below it. -/
def Request.Spares (request : Request τ) (layers : Nat) : Prop :=
  layers < request.layers ∨ layers = request.layers ∧ request.operation.Looks

/-- Run an operation. -/
def perform (buffer : Buffer ε τ) : Operation τ → Answer ε τ × Buffer ε τ
  | .peek => (.pull buffer.peek.1, buffer.peek.2)
  | .peekOr default => (.value (buffer.peekOr default).1, (buffer.peekOr default).2)
  | .hasNext => (.truth buffer.hasNext.1, buffer.hasNext.2)
  | .next => (.pull buffer.next.1, buffer.next.2)
  | .drain => (.items buffer.drain.1, buffer.drain.2)

/-- The items that an operation takes out. -/
def taken (buffer : Buffer ε τ) : Operation τ → List τ
  | .peek | .peekOr _ | .hasNext => []
  | .next => buffer.next.1.item?.toList
  | .drain => (Feed.drainOutcomes buffer.remaining).1

/-- The buffer that lies under `layers` others. -/
def inside (layers : Nat) (buffer : Buffer ε τ) : Buffer ε τ :=
  match layers, buffer with
  | layers + 1, onto _ source => source.inside layers
  | _, buffer => buffer

/-- Answer a request. -/
def ask (buffer : Buffer ε τ) (request : Request τ) : Answer ε τ × Buffer ε τ :=
  buffer.under request.layers (·.perform request.operation)

/-- The tower after a history of requests. -/
def after (buffer : Buffer ε τ) : List (Request τ) → Buffer ε τ
  | [] => buffer
  | request :: history => (buffer.ask request).2.after history

/-- The items that a history takes out, in the order in which it does. -/
def takenBy (buffer : Buffer ε τ) : List (Request τ) → List τ
  | [] => []
  | request :: history =>
    (buffer.inside request.layers).taken request.operation
      ++ (buffer.ask request).2.takenBy history

/-- The feed at the bottom. -/
def bottom : Buffer ε τ → Feed ε τ
  | «over» _ feed => feed
  | onto _ source => source.bottom

/-- What this buffer holds. -/
def own : Buffer ε τ → Option τ
  | «over» held _ => held
  | onto held _ => held

/-- What the buffers hold, from the outermost to the innermost. -/
def held (buffer : Buffer ε τ) : List τ :=
  buffer.heldItems.reverse.reduceOption

@[simp] theorem held_over (held : Option τ) (feed : Feed ε τ) :
    («over» held feed).held = held.toList := by
  cases held <;> rfl

@[simp] theorem held_onto (held : Option τ) (source : Buffer ε τ) :
    (onto held source).held = held.toList ++ source.held := by
  cases held <;> simp [Buffer.held, heldItems, List.reduceOption]

theorem asked_eq (buffer : Buffer ε τ) : buffer.asked = buffer.bottom.asked := by
  induction buffer with
  | «over» held feed => rfl
  | onto held source ih => exact ih

theorem remaining_eq (buffer : Buffer ε τ) :
    buffer.remaining = buffer.held.map .item ++ buffer.bottom.outcomes := by
  induction buffer with
  | «over» held feed => simp [remaining, bottom]
  | onto held source ih => simp [remaining, bottom, ih]

theorem under_fst {α : Type} (layers : Nat) (run : Buffer ε τ → α × Buffer ε τ)
    (buffer : Buffer ε τ) : (buffer.under layers run).1 = (run (buffer.inside layers)).1 := by
  induction layers generalizing buffer with
  | zero => rfl
  | succ layers ih =>
    cases buffer with
    | «over» held feed => rfl
    | onto held source => exact ih source

/-! ### What one operation does to the items -/

end Buffer

theorem Feed.drainOutcomes_append (outcomes : List (Pull ε τ)) :
    ∃ pulled, outcomes = pulled ++ (drainOutcomes outcomes).2.2 ∧
      pulled.filterMap Pull.item? = (drainOutcomes outcomes).1 := by
  induction outcomes with
  | nil => exact ⟨[], rfl, rfl⟩
  | cons outcome rest ih =>
    cases outcome with
    | item a =>
      obtain ⟨pulled, hrest, hitems⟩ := ih
      refine ⟨.item a :: pulled, ?_, ?_⟩
      · show _ = .item a :: (pulled ++ (drainOutcomes rest).2.2)
        rw [← hrest]
      · show a :: pulled.filterMap Pull.item? = a :: (drainOutcomes rest).1
        rw [hitems]
    | ended detail => exact ⟨[.ended detail], rfl, rfl⟩
    | fault e => exact ⟨[.fault e], rfl, rfl⟩

theorem Feed.drainOutcomes_items (items : List τ) (outcomes : List (Pull ε τ)) :
    drainOutcomes (items.map .item ++ outcomes) =
      (items ++ (drainOutcomes outcomes).1, (drainOutcomes outcomes).2) := by
  induction items with
  | nil => rfl
  | cons a items ih => simp [drainOutcomes, ih]

theorem Feed.drain_fst_ok {feed : Feed ε τ} {items : List τ} (h : feed.drain.1 = .ok items) :
    items = (drainOutcomes feed.outcomes).1 := by
  rcases hdrained : drainOutcomes feed.outcomes with ⟨drained, failure, left⟩
  cases failure <;> simp_all [drain]

namespace Buffer

/-- From `buffer` to `later`, the feed delivers what it then lacks. The items that the outer part of
the tower holds stay. What the inner part holds and what is delivered is, from its front, taken
out, and the rest of it is held. -/
def Passes (outer : List τ) (buffer later : Buffer ε τ) (out : List τ) : Prop :=
  ∃ inner left pulled,
    buffer.bottom.outcomes = pulled ++ later.bottom.outcomes ∧
    later.asked = buffer.asked + pulled.length ∧
    buffer.held = outer ++ inner ∧ later.held = outer ++ left ∧
    inner ++ pulled.filterMap Pull.item? = out ++ left

namespace Passes

variable {outer out : List τ} {buffer later : Buffer ε τ}

theorem onto (held : Option τ) (h : Passes outer buffer later out) :
    Passes (held.toList ++ outer) (.onto held buffer) (.onto held later) out := by
  obtain ⟨inner, left, pulled, hfeed, hasked, hheld, hlater, hitems⟩ := h
  exact ⟨inner, left, pulled, hfeed, hasked, by simp [hheld], by simp [hlater], hitems⟩

/-- An item that would be taken out may be held instead. -/
theorem hold {a : τ} (h : Passes [] buffer later [a]) (hown : later.own = none) :
    Passes [] buffer (later.hold a) [] := by
  obtain ⟨inner, left, pulled, hfeed, hasked, hheld, hlater, hitems⟩ := h
  have hhold : (later.hold a).held = a :: later.held := by
    cases later <;> simp_all [Buffer.hold, own]
  refine ⟨inner, a :: left, pulled, ?_, ?_, hheld, ?_, by simpa using hitems⟩
  · cases later <;> exact hfeed
  · cases later <;> exact hasked
  · rw [hhold, hlater, List.nil_append, List.nil_append]

end Passes

theorem own_next (buffer : Buffer ε τ) : buffer.next.2.own = none := by
  cases buffer with
  | «over» held feed => cases held <;> rfl
  | onto held source => cases held <;> rfl

theorem passes_next (buffer : Buffer ε τ) :
    Passes [] buffer buffer.next.2 buffer.next.1.item?.toList := by
  induction buffer with
  | «over» held feed =>
    obtain ⟨outcomes, asked⟩ := feed
    cases held with
    | some a => exact ⟨[a], [], [], rfl, rfl, rfl, rfl, rfl⟩
    | none =>
      cases outcomes with
      | nil => exact ⟨[], [], [], rfl, rfl, rfl, rfl, rfl⟩
      | cons outcome rest =>
        refine ⟨[], [], [outcome], rfl, rfl, rfl, rfl, ?_⟩
        cases outcome <;> rfl
  | onto held source ih =>
    cases held with
    | some a =>
      exact ⟨a :: source.held, source.held, [], rfl, rfl, by simp, by simp [next],
        by simp [next, Pull.item?]⟩
    | none => exact ih.onto none

theorem passes_peek (buffer : Buffer ε τ) : Passes [] buffer buffer.peek.2 [] := by
  have hnext := passes_next buffer
  have hown := own_next buffer
  rcases h : buffer.next with ⟨outcome, rest⟩
  rw [h] at hnext hown
  rw [peek, h]
  cases outcome with
  | item a => exact hnext.hold hown
  | ended detail => exact hnext
  | fault e => exact hnext

theorem drain_snd (buffer : Buffer ε τ) :
    (buffer.drain.2.held = [] ∧ buffer.drain.2.bottom = buffer.bottom.drain.2) := by
  induction buffer with
  | «over» held feed => exact ⟨rfl, rfl⟩
  | onto held source ih => exact ⟨by simp [drain, ih.1], ih.2⟩

theorem passes_drain (buffer : Buffer ε τ) :
    Passes [] buffer buffer.drain.2 (buffer.taken .drain) := by
  obtain ⟨hheld, hbottom⟩ := drain_snd buffer
  obtain ⟨pulled, hpulled, hitems⟩ := Feed.drainOutcomes_append buffer.bottom.outcomes
  have hlength : buffer.bottom.outcomes.length
      = pulled.length + (Feed.drainOutcomes buffer.bottom.outcomes).2.2.length := by
    rw [← List.length_append, ← hpulled]
  refine ⟨buffer.held, [], pulled, ?_, ?_, rfl, hheld, ?_⟩
  · rw [hbottom]
    exact hpulled
  · rw [asked_eq, asked_eq, hbottom]
    have hasked : buffer.bottom.drain.2.asked = buffer.bottom.asked
      + (buffer.bottom.outcomes.length
        - (Feed.drainOutcomes buffer.bottom.outcomes).2.2.length) := rfl
    omega
  · rw [taken, remaining_eq, Feed.drainOutcomes_items, hitems, List.append_nil]

theorem peekOr_snd (default : τ) (buffer : Buffer ε τ) :
    (buffer.peekOr default).2 = buffer.peek.2 := by
  rcases h : buffer.peek with ⟨outcome, rest⟩
  cases outcome <;> simp [peekOr, h]

theorem hasNext_snd (buffer : Buffer ε τ) : buffer.hasNext.2 = buffer.peek.2 := by
  rcases h : buffer.peek with ⟨outcome, rest⟩
  cases outcome <;> simp [hasNext, h]

/-- A look leaves what `peek` leaves. -/
theorem perform_of_looks (buffer : Buffer ε τ) {operation : Operation τ} (h : operation.Looks) :
    (buffer.perform operation).2 = buffer.peek.2 ∧ buffer.taken operation = [] := by
  cases operation with
  | peek => exact ⟨rfl, rfl⟩
  | peekOr default => exact ⟨peekOr_snd default buffer, rfl⟩
  | hasNext => exact ⟨hasNext_snd buffer, rfl⟩
  | next => exact h.elim
  | drain => exact h.elim

theorem passes_perform (buffer : Buffer ε τ) (operation : Operation τ) :
    Passes [] buffer (buffer.perform operation).2 (buffer.taken operation) := by
  rcases operation.looks_or with h | rfl | rfl
  · obtain ⟨hlater, htaken⟩ := perform_of_looks buffer h
    rw [hlater, htaken]
    exact passes_peek buffer
  · exact passes_next buffer
  · exact passes_drain buffer

/-- A request leaves the buffers over the one that is asked as they are. -/
theorem passes_ask (buffer : Buffer ε τ) (request : Request τ) :
    ∃ outer, Passes outer buffer (buffer.ask request).2
      ((buffer.inside request.layers).taken request.operation) := by
  obtain ⟨layers, operation⟩ := request
  induction layers generalizing buffer with
  | zero => exact ⟨[], passes_perform buffer operation⟩
  | succ layers ih =>
    cases buffer with
    | «over» held feed => exact ⟨[], passes_perform _ operation⟩
    | onto held source =>
      obtain ⟨outer, h⟩ := ih source
      exact ⟨held.toList ++ outer, h.onto held⟩

/-! ### Draining -/

end Buffer

theorem Feed.drain_of_next (feed : Feed ε τ) :
    feed.drain = match feed.next with
      | (.item a, rest) => (rest.drain.1.map (a :: ·), rest.drain.2)
      | (.ended _, rest) => (.ok [], rest)
      | (.fault e, rest) => (.error e, rest) := by
  obtain ⟨outcomes, asked⟩ := feed
  rcases outcomes with - | ⟨outcome, rest⟩
  · rfl
  · cases outcome with
    | ended detail => simp [drain, next, drainOutcomes]
    | fault e => simp [drain, next, drainOutcomes]
    | item a =>
      obtain ⟨pulled, hpulled, -⟩ := drainOutcomes_append rest
      rcases h : drainOutcomes rest with ⟨items, failure, left⟩
      have hlength : rest.length = pulled.length + left.length := by
        rw [← List.length_append, hpulled, h]
      have hasked : asked + (rest.length + 1 - left.length)
          = asked + 1 + (rest.length - left.length) := by omega
      cases failure <;> simp [drain, next, drainOutcomes, h, Except.map, hasked]

namespace Buffer

/-- Taking all the items is taking the next one again and again, up to a pause or a failure. -/
theorem drain_of_next (buffer : Buffer ε τ) :
    buffer.drain = match buffer.next with
      | (.item a, rest) => (rest.drain.1.map (a :: ·), rest.drain.2)
      | (.ended _, rest) => (.ok [], rest)
      | (.fault e, rest) => (.error e, rest) := by
  induction buffer with
  | «over» held feed =>
    cases held with
    | some a => rcases h : feed.drain with ⟨_ | _, left⟩ <;> simp [drain, next, h, Except.map]
    | none =>
      have hdrain := feed.drain_of_next
      rcases h : feed.next with ⟨outcome, rest⟩
      rw [h] at hdrain
      rcases hrest : rest.drain with ⟨_ | _, left⟩ <;> cases outcome <;>
        simp [drain, next, hdrain, h, hrest, Except.map]
  | onto held source ih =>
    cases held with
    | some a => rcases h : source.drain with ⟨_ | _, left⟩ <;> simp [drain, next, h, Except.map]
    | none =>
      rcases h : source.next with ⟨outcome, rest⟩
      rw [h] at ih
      rcases hrest : rest.drain with ⟨_ | _, left⟩ <;> cases outcome <;>
        simp [drain, next, ih, h, hrest, Except.map]

theorem drain_fst (buffer : Buffer ε τ) :
    buffer.drain.1 = buffer.bottom.drain.1.map (buffer.held ++ ·) := by
  induction buffer with
  | «over» held feed => rcases h : feed.drain with ⟨_ | _, left⟩ <;> simp [drain, bottom, h]
  | onto held source ih =>
    show source.drain.1.map (held.toList ++ ·) = source.bottom.drain.1.map _
    rw [ih, held_onto]
    cases source.bottom.drain.1 <;> simp [Except.map]

/-- The items that are answered are the ones that are taken out. -/
theorem items_of_drain {buffer : Buffer ε τ} {items : List τ} (h : buffer.drain.1 = .ok items) :
    items = buffer.taken .drain := by
  rw [drain_fst] at h
  rw [taken, remaining_eq, Feed.drainOutcomes_items]
  cases hdrain : buffer.bottom.drain.1 with
  | error e => rw [hdrain] at h; cases h
  | ok drained =>
    rw [hdrain] at h
    injection h with h
    rw [← h, Feed.drain_fst_ok hdrain]

/-! ### Operations that meet no item -/

theorem heldItems_next_of_none {buffer : Buffer ε τ} (h : buffer.next.1.item? = none) :
    buffer.next.2.heldItems = buffer.heldItems := by
  induction buffer with
  | «over» held feed => cases held <;> first | rfl | cases h
  | onto held source ih =>
    cases held with
    | none => exact congrArg (· ++ [none]) (ih h)
    | some a => cases h

/-- What meets no item holds nothing and takes nothing. -/
theorem perform_of_none {buffer : Buffer ε τ} (h : buffer.next.1.item? = none)
    {operation : Operation τ} (hdrain : operation ≠ .drain) :
    (buffer.perform operation).2.heldItems = buffer.heldItems ∧ buffer.taken operation = [] := by
  rcases operation.looks_or with hlooks | rfl | rfl
  · obtain ⟨hlater, htaken⟩ := perform_of_looks buffer hlooks
    refine ⟨?_, htaken⟩
    rw [hlater, ← heldItems_next_of_none h, peek]
    rcases hnext : buffer.next with ⟨outcome, rest⟩
    cases outcome with
    | item a => rw [hnext] at h; cases h
    | ended detail => rfl
    | fault e => rfl
  · exact ⟨heldItems_next_of_none h, by rw [taken, h]; rfl⟩
  · exact (hdrain rfl).elim

theorem ask_of_none {buffer : Buffer ε τ} {request : Request τ}
    (h : (buffer.inside request.layers).next.1.item? = none)
    (hdrain : request.operation ≠ .drain) :
    (buffer.ask request).2.heldItems = buffer.heldItems ∧
      (buffer.inside request.layers).taken request.operation = [] := by
  obtain ⟨layers, operation⟩ := request
  induction layers generalizing buffer with
  | zero => exact perform_of_none h hdrain
  | succ layers ih =>
    cases buffer with
    | «over» held feed => exact perform_of_none h hdrain
    | onto held source =>
      obtain ⟨hheld, htaken⟩ := ih h hdrain
      exact ⟨congrArg (· ++ [held]) hheld, htaken⟩

theorem heldItems_drain (buffer : Buffer ε τ) :
    buffer.drain.2.heldItems = List.replicate buffer.heldItems.length none := by
  induction buffer with
  | «over» held feed => rfl
  | onto held source ih =>
    show source.drain.2.heldItems ++ [none] = _
    rw [ih, heldItems, List.length_append, List.length_singleton, List.replicate_succ']

theorem length_heldItems_inside_le (buffer : Buffer ε τ) (layers : Nat) :
    (buffer.inside layers).heldItems.length ≤ buffer.heldItems.length := by
  induction layers generalizing buffer with
  | zero => exact le_rfl
  | succ layers ih =>
    cases buffer with
    | «over» held feed => exact le_rfl
    | onto held source =>
      refine (ih source).trans ?_
      simp [heldItems]

/-- Taking all the items empties a buffer and the ones under it, and leaves the ones over it. -/
theorem ask_drain (buffer : Buffer ε τ) (layers : Nat) :
    (buffer.ask ⟨layers, .drain⟩).2.heldItems =
      List.replicate (buffer.inside layers).heldItems.length none
        ++ buffer.heldItems.drop (buffer.inside layers).heldItems.length := by
  induction layers generalizing buffer with
  | zero => simp [ask, under, perform, inside, heldItems_drain]
  | succ layers ih =>
    cases buffer with
    | «over» held feed => simp [ask, under, perform, inside, heldItems_drain]
    | onto held source =>
      show (source.ask ⟨layers, .drain⟩).2.heldItems ++ [held] = _
      have hle := length_heldItems_inside_le source layers
      simp only [inside, heldItems]
      rw [ih, List.drop_append_of_le_length hle, List.append_assoc]

theorem length_heldItems_next (buffer : Buffer ε τ) :
    buffer.next.2.heldItems.length = buffer.heldItems.length := by
  induction buffer with
  | «over» held feed => cases held <;> rfl
  | onto held source ih =>
    cases held with
    | none => simpa [next, heldItems] using ih
    | some a => simp [next, heldItems]

theorem length_heldItems_peek (buffer : Buffer ε τ) :
    buffer.peek.2.heldItems.length = buffer.heldItems.length := by
  rw [← length_heldItems_next buffer, peek]
  rcases buffer.next with ⟨_ | _ | _, rest⟩
  · cases rest <;> simp [hold, heldItems]
  · rfl
  · rfl

theorem length_heldItems_perform (buffer : Buffer ε τ) (operation : Operation τ) :
    (buffer.perform operation).2.heldItems.length = buffer.heldItems.length := by
  rcases operation.looks_or with hlooks | rfl | rfl
  · rw [(perform_of_looks buffer hlooks).1, length_heldItems_peek]
  · exact length_heldItems_next buffer
  · simp [perform, heldItems_drain]

theorem length_heldItems_ask (buffer : Buffer ε τ) (request : Request τ) :
    (buffer.ask request).2.heldItems.length = buffer.heldItems.length := by
  obtain ⟨layers, operation⟩ := request
  induction layers generalizing buffer with
  | zero => exact length_heldItems_perform buffer operation
  | succ layers ih =>
    cases buffer with
    | «over» held feed => exact length_heldItems_perform _ operation
    | onto held source =>
      show ((source.ask ⟨layers, operation⟩).2.heldItems ++ [held]).length = _
      rw [List.length_append, ih, heldItems, List.length_append]

theorem length_heldItems_after (buffer : Buffer ε τ) (history : List (Request τ)) :
    (buffer.after history).heldItems.length = buffer.heldItems.length := by
  induction history generalizing buffer with
  | nil => rfl
  | cons request history ih => exact (ih _).trans (length_heldItems_ask buffer request)

/-! ### Looking, then taking -/

theorem next_of_own {buffer : Buffer ε τ} {a : τ} (h : buffer.own = some a) :
    buffer.next.1 = .item a := by
  cases buffer with
  | «over» held feed => cases h; rfl
  | onto held source => cases h; rfl

theorem own_hold (buffer : Buffer ε τ) (a : τ) : (buffer.hold a).own = some a := by
  cases buffer <;> rfl

/-- A look sees what is taken next. -/
theorem peek_fst (buffer : Buffer ε τ) : buffer.peek.1 = buffer.next.1 := by
  rw [peek]
  rcases buffer.next with ⟨_ | _ | _, rest⟩ <;> rfl

theorem own_peek {buffer : Buffer ε τ} {a : τ} (h : buffer.next.1 = .item a) :
    buffer.peek.2.own = some a := by
  have hnext : buffer.next = (.item a, buffer.next.2) := Prod.ext h rfl
  rw [peek, hnext]
  exact own_hold _ a

theorem inside_ask {buffer : Buffer ε τ} (request : Request τ)
    (h : request.layers < buffer.heldItems.length) :
    (buffer.ask request).2.inside request.layers =
      ((buffer.inside request.layers).perform request.operation).2 := by
  obtain ⟨layers, operation⟩ := request
  induction layers generalizing buffer with
  | zero => rfl
  | succ layers ih =>
    cases buffer with
    | «over» held feed => simp [heldItems] at h
    | onto held source => exact ih (by simpa [heldItems] using h)

/-- What a buffer holds stays as long as the requests spare it. -/
theorem own_ask {buffer : Buffer ε τ} {layers : Nat} {request : Request τ} {a : τ}
    (hown : (buffer.inside layers).own = some a)
    (hlayers : request.layers < buffer.heldItems.length) (hspares : request.Spares layers) :
    ((buffer.ask request).2.inside layers).own = some a := by
  obtain ⟨asked, operation⟩ := request
  induction layers generalizing buffer asked with
  | zero =>
    rcases hspares with hunder | ⟨hsame, hlooks⟩
    · obtain ⟨under, rfl⟩ := Nat.exists_eq_succ_of_ne_zero (Nat.ne_of_gt hunder)
      cases buffer with
      | «over» held feed => simp [heldItems] at hlayers
      | onto held source => exact hown
    · obtain rfl : 0 = asked := hsame
      show (buffer.perform operation).2.own = some a
      rw [(perform_of_looks buffer hlooks).1]
      exact own_peek (next_of_own hown)
  | succ layers ih =>
    cases asked with
    | zero =>
      rcases hspares with hunder | ⟨hsame, -⟩
      · exact (Nat.not_lt_zero _ hunder).elim
      · cases hsame
    | succ under =>
      cases buffer with
      | «over» held feed => simp [heldItems] at hlayers
      | onto held source =>
        refine ih hown under (by simpa [heldItems] using hlayers) ?_
        exact hspares.imp Nat.lt_of_succ_lt_succ (And.imp_left Nat.succ.inj)

theorem own_after {buffer : Buffer ε τ} {layers : Nat} {history : List (Request τ)} {a : τ}
    (hown : (buffer.inside layers).own = some a)
    (hspares : ∀ request ∈ history,
      request.layers < buffer.heldItems.length ∧ request.Spares layers) :
    ((buffer.after history).inside layers).own = some a := by
  induction history generalizing buffer with
  | nil => exact hown
  | cons request history ih =>
    have hfirst := hspares request (List.mem_cons_self ..)
    refine ih (own_ask hown hfirst.1 hfirst.2) fun later hlater => ?_
    rw [length_heldItems_ask]
    exact hspares later (List.mem_cons_of_mem _ hlater)

/-- An item that a buffer has looked at is the one that it takes next, unless in between it is asked
to take items, or a buffer over it is asked for anything. -/
theorem next_after_look {buffer : Buffer ε τ} {layers : Nat} {look : Operation τ} {a : τ}
    {between : List (Request τ)} (hlayers : layers < buffer.heldItems.length)
    (hitem : (buffer.inside layers).next.1 = .item a) (hlook : look.Looks)
    (hspares : ∀ request ∈ between,
      request.layers < buffer.heldItems.length ∧ request.Spares layers) :
    (((buffer.ask ⟨layers, look⟩).2.after between).ask ⟨layers, .next⟩).1 = .pull (.item a) := by
  have hlooked : ((buffer.ask ⟨layers, look⟩).2.inside layers).own = some a := by
    rw [inside_ask ⟨layers, look⟩ hlayers, (perform_of_looks _ hlook).1]
    exact own_peek hitem
  have hheld : (((buffer.ask ⟨layers, look⟩).2.after between).inside layers).own = some a :=
    own_after hlooked (by rwa [length_heldItems_ask])
  rw [ask, under_fst, perform, next_of_own hheld]

end Buffer

end Precedence
