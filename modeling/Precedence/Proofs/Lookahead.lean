import Mathlib
import Precedence.Proofs.Coupling

/-!
# Looking ahead

How the buffer of a climb answers, and how the operations on it run.

## Main statements

- `Buffer.remaining_peek` — a look at an item takes nothing away
- `Buffer.peek_peek` — a second look changes nothing
- `Buffer.remaining_of_next`, `Buffer.remaining_of_peek` — what an item shows of what is left
- `ClimbM.run_onBuffer`, `ClimbM.run_onUser` — the runs of the operations of a climb
-/

namespace Precedence

variable {σ ε τ α : Type}

namespace Buffer

/-! ### What a look leaves -/

theorem remaining_hold_next (buffer : Buffer ε τ) (a : τ) :
    (buffer.next.2.hold a).remaining = .item a :: buffer.next.2.remaining := by
  cases buffer with
  | «over» held feed => cases held <;> rfl
  | onto held source => cases held <;> rfl

theorem next_hold_next (buffer : Buffer ε τ) (a : τ) :
    (buffer.next.2.hold a).next = (.item a, buffer.next.2) := by
  cases buffer with
  | «over» held feed => cases held <;> rfl
  | onto held source => cases held <;> rfl

/-- An exhausted buffer stays as it is. -/
theorem next_of_remaining_nil {buffer : Buffer ε τ} (h : buffer.remaining = []) :
    buffer.next = (.ended none, buffer) := by
  induction buffer with
  | «over» held feed =>
    obtain ⟨outcomes, asked⟩ := feed
    cases held with
    | none =>
      cases outcomes with
      | nil => rfl
      | cons outcome rest => simp [remaining] at h
    | some a => simp [remaining] at h
  | onto held source ih =>
    cases held with
    | none => simp only [next, ih (by simpa [remaining] using h)]
    | some a => simp [remaining] at h

theorem peek_of_remaining_nil {buffer : Buffer ε τ} (h : buffer.remaining = []) :
    buffer.peek = (.ended none, buffer) := by
  rw [peek, next_of_remaining_nil h]

theorem next_of_remaining_cons {buffer : Buffer ε τ} {outcome : Pull ε τ} {rest : List (Pull ε τ)}
    (h : buffer.remaining = outcome :: rest) :
    buffer.next.1 = outcome ∧ buffer.next.2.remaining = rest :=
  ⟨by rw [next_fst, h]; rfl, by rw [remaining_next, h]; rfl⟩

theorem peek_of_remaining_cons {buffer : Buffer ε τ} {a : τ} {rest : List (Pull ε τ)}
    (h : buffer.remaining = .item a :: rest) : buffer.peek = (.item a, buffer.next.2.hold a) := by
  have hnext : buffer.next = (.item a, buffer.next.2) :=
    Prod.ext (next_of_remaining_cons h).1 rfl
  rw [peek, hnext]

/-- A look at an item takes nothing away. -/
theorem remaining_peek {buffer : Buffer ε τ} {a : τ} {rest : List (Pull ε τ)}
    (h : buffer.remaining = .item a :: rest) : buffer.peek.2.remaining = buffer.remaining := by
  rw [peek_of_remaining_cons h, remaining_hold_next, (next_of_remaining_cons h).2, h]

theorem peek_peek {buffer : Buffer ε τ} {a : τ} {rest : List (Pull ε τ)}
    (h : buffer.remaining = .item a :: rest) : buffer.peek.2.peek = (.item a, buffer.peek.2) := by
  rw [peek_of_remaining_cons h, peek, next_hold_next]

/-- The item that is taken is the first of what was still to be delivered. -/
theorem remaining_of_next {buffer later : Buffer ε τ} {a : τ} (h : buffer.next = (.item a, later)) :
    buffer.remaining = .item a :: later.remaining := by
  have hfirst := buffer.next_fst
  have hrest := buffer.remaining_next
  rw [h] at hfirst hrest
  cases hremaining : buffer.remaining with
  | nil =>
    rw [hremaining] at hfirst
    cases hfirst
  | cons outcome rest =>
    rw [hremaining] at hfirst hrest
    obtain rfl : .item a = outcome := hfirst
    rw [hrest]
    rfl

theorem suffix_next (buffer : Buffer ε τ) : buffer.next.2.remaining <:+ buffer.remaining := by
  rw [remaining_next]
  exact List.tail_suffix _

theorem suffix_peek (buffer : Buffer ε τ) : buffer.peek.2.remaining <:+ buffer.remaining := by
  have hrest := buffer.suffix_next
  rcases hnext : buffer.next with ⟨outcome, rest⟩
  rw [hnext] at hrest
  cases outcome with
  | item a => rw [remaining_peek (remaining_of_next hnext)]
  | ended detail =>
    rw [peek, hnext]
    exact hrest
  | fault e =>
    rw [peek, hnext]
    exact hrest

/-- An item that is seen is the first of what is still to be delivered, and stays there. -/
theorem remaining_of_peek {buffer later : Buffer ε τ} {a : τ} (h : buffer.peek = (.item a, later)) :
    ∃ rest, buffer.remaining = .item a :: rest ∧ later.remaining = .item a :: rest := by
  rcases hnext : buffer.next with ⟨outcome, rest⟩
  cases outcome with
  | item b =>
    have hremaining := remaining_of_next hnext
    have hpeek := remaining_peek hremaining
    have hseen := peek_of_remaining_cons hremaining
    rw [h] at hpeek hseen
    obtain rfl : a = b := Pull.item.inj (congrArg Prod.fst hseen)
    exact ⟨rest.remaining, hremaining, hpeek.trans hremaining⟩
  | ended detail =>
    rw [peek, hnext] at h
    cases h
  | fault e =>
    rw [peek, hnext] at h
    cases h

end Buffer

/-! ### Runs of the operations -/

namespace ClimbM

theorem run_onBuffer (op : Buffer ε τ → Pull ε τ × Buffer ε τ) (s : ClimbState σ ε τ) :
    (onBuffer op).run.run s = match op s.buffer with
      | (.item a, buffer) => (.ok (some a), ⟨buffer, s.user⟩)
      | (.ended _, buffer) => (.ok none, ⟨buffer, s.user⟩)
      | (.fault e, buffer) => (.error e, ⟨buffer, s.user⟩) := by
  rcases h : op s.buffer with ⟨outcome, buffer⟩
  simp only [onBuffer, run_bind, run_get, h]
  cases outcome <;> rfl

theorem run_onUser (act : Nat → Act σ ε α) (s : ClimbState σ ε τ) :
    (onUser act : ClimbM σ ε τ α).run.run s =
      (((act s.buffer.asked).run.run s.user).1,
        ⟨s.buffer, ((act s.buffer.asked).run.run s.user).2⟩) := by
  rcases h : (act s.buffer.asked).run.run s.user with ⟨result, user⟩
  simp only [onUser, run_bind, run_get, h]
  cases result <;> rfl

theorem run_next_of_cons {s : ClimbState σ ε τ} {a : τ} {rest : List (Pull ε τ)}
    (h : s.buffer.remaining = .item a :: rest) :
    (next : ClimbM σ ε τ _).run.run s = (.ok (some a), ⟨s.buffer.next.2, s.user⟩) := by
  have hnext : s.buffer.next = (.item a, s.buffer.next.2) :=
    Prod.ext (Buffer.next_of_remaining_cons h).1 rfl
  rw [next, run_onBuffer, hnext]

theorem run_peekOperator_of_cons {grammar : Grammar ε τ} {s : ClimbState σ ε τ} {op : τ}
    {level : Level} {rest : List (Pull ε τ)} (h : s.buffer.remaining = .item op :: rest)
    (hlevel : grammar.level? op = .ok (some level)) :
    (peekOperator grammar : ClimbM σ ε τ _).run.run s =
      (.ok (some (op, level)), ⟨s.buffer.peek.2, s.user⟩) := by
  have hpeek : (peek : ClimbM σ ε τ _).run.run s = (.ok (some op), ⟨s.buffer.peek.2, s.user⟩) := by
    rw [peek, run_onBuffer, Buffer.peek_of_remaining_cons h]
  rw [peekOperator, run_bind_ok hpeek]
  simp only [hlevel]
  rfl

/-! ### Runs over items -/

variable {items : List τ} {s : ClimbState σ ε τ}

theorem remaining_next_items {buffer : Buffer ε τ} (h : buffer.remaining = items.map .item) :
    buffer.next.2.remaining = items.tail.map .item := by
  rw [Buffer.remaining_next, h, List.map_tail]

theorem remaining_peek_items {buffer : Buffer ε τ} (h : buffer.remaining = items.map .item) :
    buffer.peek.2.remaining = items.map .item := by
  cases items with
  | nil => rw [Buffer.peek_of_remaining_nil h, h]
  | cons a rest => rw [Buffer.remaining_peek h, h]

theorem peek_peek_items {buffer : Buffer ε τ} (h : buffer.remaining = items.map .item) :
    buffer.peek.2.peek.2 = buffer.peek.2 := by
  cases items with
  | nil => rw [Buffer.peek_of_remaining_nil h, Buffer.peek_of_remaining_nil h]
  | cons a rest => rw [Buffer.peek_peek h]

theorem run_next (h : s.buffer.remaining = items.map .item) :
    (next : ClimbM σ ε τ _).run.run s = (.ok items.head?, ⟨s.buffer.next.2, s.user⟩) := by
  cases items with
  | nil => rw [next, run_onBuffer, Buffer.next_of_remaining_nil h]; rfl
  | cons a rest => exact run_next_of_cons h

theorem run_peek (h : s.buffer.remaining = items.map .item) :
    (peek : ClimbM σ ε τ _).run.run s = (.ok items.head?, ⟨s.buffer.peek.2, s.user⟩) := by
  rw [peek, run_onBuffer]
  cases items with
  | nil => rw [Buffer.peek_of_remaining_nil h]; rfl
  | cons a rest => rw [Buffer.peek_of_remaining_cons h]; rfl

theorem run_peekOperator (grammar : Grammar ε τ) (h : s.buffer.remaining = items.map .item) :
    (peekOperator grammar : ClimbM σ ε τ _).run.run s =
      (match items.head? with
        | none => .ok none
        | some a => (grammar.level? a).map (·.map (a, ·)),
        ⟨s.buffer.peek.2, s.user⟩) := by
  rw [peekOperator, run_bind_ok (run_peek h)]
  cases items with
  | nil => rfl
  | cons a rest =>
    simp only [List.head?_cons]
    cases grammar.level? a <;> rfl

/-- A second look at an operator sees the same. -/
theorem run_peekOperator_again (grammar : Grammar ε τ) (h : s.buffer.remaining = items.map .item)
    (k : Option (τ × Level) → ClimbM σ ε τ α) :
    (peekOperator grammar >>= fun _ => peekOperator grammar >>= k).run.run s =
      (peekOperator grammar >>= k).run.run s := by
  have hpeek := remaining_peek_items h
  rw [run_bind, run_bind, run_peekOperator grammar h]
  cases hseen : (match items.head? with
      | none => .ok none
      | some a => (grammar.level? a).map (·.map (a, ·)) : Except ε (Option (τ × Level))) with
  | error e => rfl
  | ok seen =>
    dsimp only
    rw [run_bind, run_peekOperator grammar hpeek, hseen, peek_peek_items h]

end ClimbM

end Precedence
