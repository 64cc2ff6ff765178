import Mathlib
import Precedence.Proofs.Asking
import Precedence.Proofs.Traversal

/-!
# How far a climb looks ahead

A climb pulls an item from the feed when it takes it, and at most one item beyond that, to see
whether it goes on. What has been pulled is known at every call of the callbacks, however deep the recursion
is at that call.

## Main definitions

- `Pulled` — a buffer from which some items have been taken, and which holds at most one
- `Count` — the record of a call: how many outcomes the feed had delivered
- `Hooks.counted` — callbacks that record their calls
- `Count.Timely` — a call for which no more has been pulled than must have been
- `InPace` — what holds between the steps of a climb with recorded calls

## Main statements

- `Pulled.next`, `Pulled.peek` — taking an item, and looking at it
- `outerPaced_succ`, `innerPaced_succ` — a round of either loop
- `loops_pulled` — both loops of a climb keep what has been pulled in step with the calls
- `runClimb_pulled` — what has been pulled at every call and at the end of a climb

## Design notes

The climb with recorded calls is run beside the one without, and both have the same buffer
throughout. So the callbacks may depend on how many outcomes they are told of.
-/

namespace Precedence

variable {σ ε τ ρ α : Type}

namespace Buffer

/-- Taking an item takes what is held first. -/
theorem held_next (buffer : Buffer ε τ) : buffer.next.2.held = buffer.held.tail := by
  induction buffer with
  | «over» held feed => cases held <;> simp [next]
  | onto held source ih =>
    cases held with
    | none => simpa [next] using ih
    | some a => simp [next]

theorem held_hold_next (buffer : Buffer ε τ) (a : τ) :
    (buffer.next.2.hold a).held = a :: buffer.held.tail := by
  rw [← held_next]
  cases buffer with
  | «over» held feed => cases held <;> simp [next, hold]
  | onto held source => cases held <;> simp [next, hold]

/-- What the feed has delivered it delivers no more. -/
theorem Passes.asked_add_length {outer out : List τ} {buffer later : Buffer ε τ}
    (h : Passes outer buffer later out) :
    later.asked + later.bottom.outcomes.length = buffer.asked + buffer.bottom.outcomes.length := by
  obtain ⟨inner, left, pulled, hfeed, hasked, -⟩ := h
  rw [hfeed, List.length_append, hasked]
  omega

end Buffer

/-! ### Pulled items -/

/-- Of the items, `taken` have been taken from a buffer whose feed had delivered `start` outcomes
before the first of them. It holds at most one more, and that is all that has been pulled. -/
structure Pulled (items : List τ) (start taken : Nat) (buffer : Buffer ε τ) : Prop where
  remaining : buffer.remaining = (items.drop taken).map .item
  le : taken ≤ items.length
  held : buffer.held.length ≤ 1
  asked : buffer.asked = start + taken + buffer.held.length

namespace Pulled

variable {items : List τ} {start taken : Nat} {buffer later : Buffer ε τ}

theorem fresh (hremaining : buffer.remaining = items.map .item) (hheld : buffer.held = []) :
    Pulled items buffer.asked 0 buffer :=
  ⟨hremaining, Nat.zero_le _, by simp [hheld], by simp [hheld]⟩

/-- What has been pulled follows from what is left. -/
theorem of_passes {outer out : List τ} {taken' : Nat} (h : Pulled items start taken buffer)
    (hpasses : Buffer.Passes outer buffer later out)
    (hremaining : later.remaining = (items.drop taken').map .item) (hle : taken' ≤ items.length)
    (hheld : later.held.length ≤ 1) : Pulled items start taken' later := by
  refine ⟨hremaining, hle, hheld, ?_⟩
  have hbefore := congrArg List.length (buffer.remaining_eq.symm.trans h.remaining)
  have hafter := congrArg List.length (later.remaining_eq.symm.trans hremaining)
  simp only [List.length_append, List.length_map, List.length_drop] at hbefore hafter
  have hfeed := hpasses.asked_add_length
  have hasked := h.asked
  have := h.le
  omega

/-- Taking an item pulls it, unless it is held already. -/
theorem next (h : Pulled items start taken buffer) (hlt : taken < items.length) :
    Pulled items start (taken + 1) buffer.next.2 ∧ buffer.next.2.held = [] := by
  have hheld := h.held
  have hempty : buffer.next.2.held = [] := by
    rw [Buffer.held_next, ← List.length_eq_zero_iff, List.length_tail]
    omega
  refine ⟨h.of_passes buffer.passes_next ?_ hlt (by simp [hempty]), hempty⟩
  rw [Buffer.remaining_next, h.remaining, ← List.map_tail, List.tail_drop]

/-- A look pulls at most one item. -/
theorem peek (h : Pulled items start taken buffer) : Pulled items start taken buffer.peek.2 := by
  have hheld := h.held
  refine h.of_passes buffer.passes_peek (ClimbM.remaining_peek_items h.remaining) h.le ?_
  cases hitems : items.drop taken with
  | nil =>
    rw [Buffer.peek_of_remaining_nil (by rw [h.remaining, hitems]; rfl)]
    exact hheld
  | cons a rest =>
    rw [Buffer.peek_of_remaining_cons (by rw [h.remaining, hitems]; rfl), Buffer.held_hold_next,
      List.length_cons, List.length_tail]
    omega

end Pulled

/-! ### Recorded calls -/

/-- A call of a callback: how many outcomes the feed had delivered, and for an operand the item. -/
inductive Count (τ : Type) where
  | operand (asked : Nat) (item : τ)
  | operator (asked : Nat)

/-- Callbacks that record their calls. -/
def Hooks.counted (hooks : Hooks σ ε τ α) : Hooks (σ × List (Count τ)) ε τ α where
  primary asked item :=
    (hooks.primary asked item).beside fun _ calls => calls ++ [.operand asked item]
  combine asked left op right :=
    (hooks.combine asked left op right).beside fun _ calls => calls ++ [.operator asked]
  observe note := modify fun s => (((hooks.observe note).run s.1).2, s.2)

namespace Count

/-- The item of a call for an operand. -/
def item? : Count τ → Option τ
  | operand _ item => some item
  | operator _ => none

/-- The number of the calls for operands. -/
def operands (calls : List (Count τ)) : Nat :=
  (calls.filterMap item?).length

@[simp] theorem operands_nil : operands ([] : List (Count τ)) = 0 := rfl

@[simp] theorem operands_concat_operand (calls : List (Count τ)) (asked : Nat) (item : τ) :
    operands (calls ++ [.operand asked item]) = operands calls + 1 := by
  simp [operands, item?]

@[simp] theorem operands_concat_operator (calls : List (Count τ)) (asked : Nat) :
    operands (calls ++ [.operator asked]) = operands calls := by
  simp [operands, item?]

/-- After `earlier` calls for operands: the call for an operand is for the item that comes two after
the last one, and just the items up to it have been pulled. At the call for an operator at most one
item has been pulled beyond the last one that there was a call for. -/
def Timely (items : List τ) (start earlier : Nat) : Count τ → Prop
  | operand asked item => items[2 * earlier]? = some item ∧ asked = start + (2 * earlier + 1)
  | operator asked => ∃ last, earlier = last + 1 ∧
      start + (2 * last + 1) ≤ asked ∧ asked ≤ start + (2 * last + 1) + 1

/-- Every call comes in time. -/
def AllTimely (items : List τ) (start : Nat) (calls : List (Count τ)) : Prop :=
  ∀ front call back, calls = front ++ call :: back → call.Timely items start (operands front)

theorem AllTimely.concat {items : List τ} {start : Nat} {calls : List (Count τ)} {call : Count τ}
    (h : AllTimely items start calls) (hcall : call.Timely items start (operands calls)) :
    AllTimely items start (calls ++ [call]) := by
  intro front other back hcalls
  rcases List.eq_nil_or_concat back with rfl | ⟨back, last, rfl⟩
  · obtain ⟨rfl, rfl⟩ := List.append_inj' hcalls rfl |>.imp id List.singleton_inj.1
    exact hcall
  · refine h front other back ?_
    rw [List.concat_eq_append, ← List.cons_append, ← List.append_assoc] at hcalls
    exact (List.append_inj' hcalls rfl).1

end Count

/-! ### Steps -/

/-- A climb with recorded calls, beside one without: both have the same buffer, from which `taken`
items have been taken, and there have been calls for `called` operands. -/
structure InPace (items : List τ) (start called taken : Nat)
    (s₁ : ClimbState (σ × List (Count τ)) ε τ) (s₂ : ClimbState σ ε τ) : Prop where
  buffer : s₁.buffer = s₂.buffer
  user : s₁.user.1 = s₂.user
  called : Count.operands s₁.user.2 = called
  timely : Count.AllTimely items start s₁.user.2
  pulled : Pulled items start taken s₁.buffer

/-- Between the operands: the last item that was taken is the last operand that there was a call
for. -/
def Paced (items : List τ) (start : Nat) (s₁ : ClimbState (σ × List (Count τ)) ε τ)
    (s₂ : ClimbState σ ε τ) : Prop :=
  ∃ last, InPace items start (last + 1) (2 * last + 1) s₁ s₂

/-- The same failure of both climbs. -/
def FailsInPace (items : List τ) (start : Nat) (e₁ e₂ : ε)
    (s₁ : ClimbState (σ × List (Count τ)) ε τ) (s₂ : ClimbState σ ε τ) : Prop :=
  e₁ = e₂ ∧ ∃ called taken, InPace items start called taken s₁ s₂

section

variable {items : List τ} {start called taken last : Nat} {grammar : Grammar ε τ}
  (hooks : Hooks σ ε τ α)

open ClimbM

theorem next_pulled :
    Coupled (InPace items start called taken) (next : ClimbM (σ × List (Count τ)) ε τ _)
      (next : ClimbM σ ε τ _)
      (fun a₁ a₂ s₁ s₂ => (a₁ = a₂ ∧ a₁ = items[taken]?) ∧ match a₁ with
        | none => InPace items start called taken s₁ s₂
        | some _ => s₁.buffer.held = [] ∧ InPace items start called (taken + 1) s₁ s₂)
      (FailsInPace items start) := by
  intro s₁ s₂ hs
  have hremaining := hs.pulled.remaining
  rw [run_next hremaining, run_next (hs.buffer ▸ hremaining), ← hs.buffer]
  refine .ok ⟨⟨rfl, List.head?_drop⟩, ?_⟩
  rw [List.head?_drop]
  cases hitem : items[taken]? with
  | none =>
    have hnil : s₁.buffer.remaining = [] := by
      rw [hremaining, List.drop_eq_nil_of_le (List.getElem?_eq_none_iff.mp hitem)]
      rfl
    rw [Buffer.next_of_remaining_nil hnil]
    exact ⟨rfl, hs.user, hs.called, hs.timely, hs.pulled⟩
  | some a =>
    obtain ⟨hpulled, hheld⟩ := hs.pulled.next (List.getElem?_eq_some_iff.mp hitem).1
    exact ⟨hheld, rfl, hs.user, hs.called, hs.timely, hpulled⟩

theorem peekOperator_pulled :
    Coupled (InPace items start called taken)
      (peekOperator grammar : ClimbM (σ × List (Count τ)) ε τ _)
      (peekOperator grammar : ClimbM σ ε τ _)
      (fun a₁ a₂ s₁ s₂ => (a₁ = a₂ ∧ (a₁ ≠ none → taken < items.length)) ∧
        InPace items start called taken s₁ s₂)
      (FailsInPace items start) := by
  intro s₁ s₂ hs
  have hremaining := hs.pulled.remaining
  rw [run_peekOperator grammar hremaining, run_peekOperator grammar (hs.buffer ▸ hremaining),
    ← hs.buffer]
  have hkeeps : InPace items start called taken ⟨s₁.buffer.peek.2, s₁.user⟩
      ⟨s₁.buffer.peek.2, s₂.user⟩ :=
    ⟨rfl, hs.user, hs.called, hs.timely, hs.pulled.peek⟩
  rw [List.head?_drop]
  cases hitem : items[taken]? with
  | none => exact .ok ⟨⟨rfl, fun h => absurd rfl h⟩, hkeeps⟩
  | some a =>
    have hlt : taken < items.length := (List.getElem?_eq_some_iff.mp hitem).1
    dsimp only
    cases grammar.level? a with
    | error e => exact .error ⟨rfl, _, _, hkeeps⟩
    | ok level => exact .ok ⟨⟨rfl, fun _ => hlt⟩, hkeeps⟩

/-- A call for an operand just after it has been taken. -/
theorem primary_pulled {item : τ} (hitem : items[2 * called]? = some item) :
    Coupled (fun s₁ s₂ => s₁.buffer.held = [] ∧ InPace items start called (2 * called + 1) s₁ s₂)
      (onUser (hooks.counted.primary · item) : ClimbM (σ × List (Count τ)) ε τ α)
      (onUser (hooks.primary · item) : ClimbM σ ε τ α)
      (fun a₁ a₂ s₁ s₂ => a₁ = a₂ ∧ Paced items start s₁ s₂) (FailsInPace items start) := by
  rintro s₁ s₂ ⟨hheld, hs⟩
  have hasked : s₁.buffer.asked = start + (2 * called + 1) := by
    rw [hs.pulled.asked, hheld, List.length_nil, Nat.add_zero]
  have htimely : Count.Timely items start (Count.operands s₁.user.2)
      (.operand s₁.buffer.asked item) := by
    rw [hs.called]
    exact ⟨hitem, hasked⟩
  rw [run_onUser, run_onUser, Hooks.counted]
  simp only [run_beside]
  rw [← hs.buffer, hs.user]
  rcases (hooks.primary s₁.buffer.asked item).run.run s₂.user with ⟨result, user⟩
  have hkeeps : InPace items start (called + 1) (2 * called + 1)
      ⟨s₁.buffer, user, s₁.user.2 ++ [.operand s₁.buffer.asked item]⟩ ⟨s₁.buffer, user⟩ :=
    ⟨rfl, rfl, by simp [hs.called], hs.timely.concat htimely, hs.pulled⟩
  cases result with
  | ok a => exact .ok ⟨rfl, called, hkeeps⟩
  | error e => exact .error ⟨rfl, _, _, hkeeps⟩

theorem combine_pulled (left : α) (op : τ) (right : α) :
    Coupled (Paced items start)
      (onUser (hooks.counted.combine · left op right) : ClimbM (σ × List (Count τ)) ε τ α)
      (onUser (hooks.combine · left op right) : ClimbM σ ε τ α)
      (fun a₁ a₂ s₁ s₂ => a₁ = a₂ ∧ Paced items start s₁ s₂) (FailsInPace items start) := by
  rintro s₁ s₂ ⟨last, hs⟩
  have hasked := hs.pulled.asked
  have hheld := hs.pulled.held
  have htimely : Count.Timely items start (Count.operands s₁.user.2)
      (.operator s₁.buffer.asked) := by
    rw [hs.called]
    exact ⟨last, rfl, by omega, by omega⟩
  rw [run_onUser, run_onUser, Hooks.counted]
  simp only [run_beside]
  rw [← hs.buffer, hs.user]
  rcases (hooks.combine s₁.buffer.asked left op right).run.run s₂.user with ⟨result, user⟩
  have hkeeps : InPace items start (last + 1) (2 * last + 1)
      ⟨s₁.buffer, user, s₁.user.2 ++ [.operator s₁.buffer.asked]⟩ ⟨s₁.buffer, user⟩ :=
    ⟨rfl, rfl, by simp [hs.called], hs.timely.concat htimely, hs.pulled⟩
  cases result with
  | ok a => exact .ok ⟨rfl, last, hkeeps⟩
  | error e => exact .error ⟨rfl, _, _, hkeeps⟩

theorem observe_pulled (note : Note τ) :
    Coupled (Paced items start)
      (onUser fun _ => hooks.counted.observe note : ClimbM (σ × List (Count τ)) ε τ Unit)
      (onUser fun _ => hooks.observe note : ClimbM σ ε τ Unit)
      (fun _ _ s₁ s₂ => Paced items start s₁ s₂) (FailsInPace items start) := by
  rintro s₁ s₂ ⟨last, hs⟩
  rw [run_onUser, run_onUser]
  refine .ok ⟨last, hs.buffer, ?_, hs.called, hs.timely, hs.pulled⟩
  exact congrArg (fun user => ((hooks.observe note).run user).2) hs.user

/-! ### Loops -/

variable (items start grammar) in
/-- The outer loop keeps what has been pulled in step with the calls. -/
def OuterPaced (fuel : Nat) : Prop :=
  ∀ floor left, Coupled (Paced items start) (climbFrom grammar hooks.counted fuel floor left)
    (climbFrom grammar hooks fuel floor left)
    (fun a₁ a₂ s₁ s₂ => a₁ = a₂ ∧ Paced items start s₁ s₂) (FailsInPace items start)

variable (items start grammar) in
/-- The inner loop keeps what has been pulled in step with the calls. -/
def InnerPaced (fuel : Nat) : Prop :=
  ∀ prec right, Coupled (Paced items start) (absorb grammar hooks.counted fuel prec right)
    (absorb grammar hooks fuel prec right)
    (fun a₁ a₂ s₁ s₂ => a₁ = a₂ ∧ Paced items start s₁ s₂) (FailsInPace items start)

/-- A round of the outer loop pulls the operator and its operand, and calls for the operand. -/
theorem outerPaced_succ {fuel : Nat} (ihFrom : OuterPaced items start grammar hooks fuel)
    (ihAbsorb : InnerPaced items start grammar hooks fuel) :
    OuterPaced items start grammar hooks (fuel + 1) := by
  intro floor left
  rw [climbFrom_step, climbFrom_step]
  rintro s₁ s₂ ⟨last, hs⟩
  refine Coupled.bind peekOperator_pulled (fun seen _ => Coupled.of_rel ?_) s₁ s₂ hs
  rintro ⟨rfl, hseen⟩
  cases seen with
  | none => exact Coupled.pure fun _ _ hs => ⟨rfl, last, hs⟩
  | some seen =>
    obtain ⟨op, level⟩ := seen
    have hop : 2 * last + 1 < items.length := hseen (Option.some_ne_none _)
    dsimp only
    split
    · exact Coupled.pure fun _ _ hs => ⟨rfl, last, hs⟩
    refine Coupled.bind next_pulled fun taken _ => Coupled.of_rel ?_
    rintro ⟨rfl, htaken⟩
    obtain rfl : taken = some items[2 * last + 1] := htaken.trans (List.getElem?_eq_getElem hop)
    refine Coupled.bind (next_pulled.mono (fun _ _ hs => hs.2) (fun _ _ _ _ hs => hs)
      fun _ _ _ _ hs => hs) fun taken _ => Coupled.of_rel ?_
    rintro ⟨rfl, htaken⟩
    cases taken with
    | none => exact Coupled.throw fun _ _ hs => ⟨rfl, _, _, hs⟩
    | some item =>
      refine Coupled.bind (primary_pulled hooks htaken.symm) fun operand _ => Coupled.of_rel ?_
      rintro rfl
      refine Coupled.bind (ihAbsorb _ operand) fun right _ => Coupled.of_rel ?_
      rintro rfl
      refine Coupled.bind (observe_pulled hooks _) fun _ _ => ?_
      refine Coupled.bind (combine_pulled hooks left op right) fun value _ => Coupled.of_rel ?_
      rintro rfl
      exact ihFrom floor value

/-- A round of the inner loop pulls no more than the operator that it looks at. -/
theorem innerPaced_succ {fuel : Nat} (ihFrom : OuterPaced items start grammar hooks fuel)
    (ihAbsorb : InnerPaced items start grammar hooks fuel) :
    InnerPaced items start grammar hooks (fuel + 1) := by
  intro prec right
  rw [absorb_step, absorb_step]
  rintro s₁ s₂ ⟨last, hs⟩
  refine Coupled.bind peekOperator_pulled (fun seen _ => Coupled.of_rel ?_) s₁ s₂ hs
  rintro ⟨rfl, -⟩
  cases seen with
  | none => exact Coupled.pure fun _ _ hs => ⟨rfl, last, hs⟩
  | some seen =>
    obtain ⟨op, level⟩ := seen
    dsimp only
    split
    · refine Coupled.bind ((observe_pulled hooks _).mono (fun _ _ hs => ⟨last, hs⟩)
        (fun _ _ _ _ hs => hs) fun _ _ _ _ hs => hs) fun _ _ => ?_
      refine Coupled.bind (ihFrom level.prec right) fun value _ => Coupled.of_rel ?_
      rintro rfl
      exact ihAbsorb prec value
    · exact Coupled.pure fun _ _ hs => ⟨rfl, last, hs⟩

/-- Both loops keep what has been pulled in step with the calls. -/
theorem loops_pulled (fuel : Nat) :
    OuterPaced items start grammar hooks fuel ∧ InnerPaced items start grammar hooks fuel := by
  induction fuel with
  | zero => exact ⟨fun _ _ _ _ hs => .ok ⟨rfl, hs⟩, fun _ _ _ _ hs => .ok ⟨rfl, hs⟩⟩
  | succ fuel ih => exact ⟨outerPaced_succ hooks ih.1 ih.2, innerPaced_succ hooks ih.1 ih.2⟩

theorem climb_pulled :
    Coupled (InPace items start 0 0) (climb grammar hooks.counted) (climb grammar hooks)
      (fun a₁ a₂ s₁ s₂ => a₁ = a₂ ∧ Paced items start s₁ s₂) (FailsInPace items start) := by
  rw [climb_step, climb_step]
  refine Coupled.bind next_pulled fun first _ => Coupled.of_rel ?_
  rintro ⟨rfl, hfirst⟩
  cases first with
  | none => exact Coupled.throw fun _ _ hs => ⟨rfl, _, _, hs⟩
  | some first =>
    refine Coupled.bind (primary_pulled hooks hfirst.symm) fun left _ => Coupled.of_rel ?_
    rintro rfl s₁ s₂ ⟨last, hs⟩
    rw [run_bind_ok (run_get s₁), run_bind_ok (run_get s₂), hs.buffer]
    exact (loops_pulled hooks _).1 0 left s₁ s₂ ⟨last, hs⟩

variable (grammar) in
/-- However a climb with recorded calls ends, it ends as the climb does, with calls in time. -/
theorem exists_inPace {buffer : Buffer ε τ} (hbuffer : buffer.remaining = items.map .item)
    (hheld : buffer.held = []) (s : σ) :
    let counted := (climb grammar hooks.counted).run.run ⟨buffer, s, []⟩
    let plain := (climb grammar hooks).run.run ⟨buffer, s⟩
    counted.1 = plain.1 ∧ ∃ called taken,
      InPace items buffer.asked called taken counted.2 plain.2 ∧
        ∀ value, counted.1 = .ok value → taken + 1 = 2 * called := by
  intro counted plain
  have hstart : InPace items buffer.asked 0 0 (⟨buffer, s, []⟩ : ClimbState _ ε τ) ⟨buffer, s⟩ :=
    ⟨rfl, rfl, rfl, by rintro (_ | _) _ _ ⟨⟩, .fresh hbuffer hheld⟩
  have hends : Agree _ _ counted plain := climb_pulled hooks _ _ hstart
  revert hends
  generalize counted = end₁
  generalize plain = end₂
  intro hends
  cases hends with
  | ok h =>
    obtain ⟨rfl, last, hpace⟩ := h
    exact ⟨rfl, last + 1, 2 * last + 1, hpace, fun _ _ => by omega⟩
  | error h =>
    obtain ⟨rfl, called, taken, hpace⟩ := h
    exact ⟨rfl, called, taken, hpace, fun _ h => by cases h⟩

end

/-- A climb from a buffer that holds nothing pulls no more than it must. When it calls for the operand
that is its item number `i`, just `i + 1` items have been pulled, and at every call for an operator at
most one item beyond the last operand that there was a call for. At its end the buffer holds at most
one item, and that is all that has been pulled beyond the items that were taken; these are the ones
up to the last operand, if the climb gives a value. -/
theorem runClimb_pulled [RuleKey ρ] (climber : Climber ρ) (reader : RuleReader ε τ ρ)
    (emptyInput : ε) (missingOperand : τ → ε) (hooks : Hooks σ ε τ α) (items : List τ)
    (buffer : Buffer ε τ) (hbuffer : buffer.remaining = items.map .item)
    (hheld : buffer.held = []) (s : σ) :
    let grammar := climber.grammar reader emptyInput missingOperand
    let plain := (runClimb grammar hooks buffer).run s
    let ends := (runClimb grammar hooks.counted buffer).run (s, [])
    let calls := ends.2.2
    (ends.1 = plain.1 ∧ ends.2.1 = plain.2) ∧
    (∀ front asked item back, calls = front ++ .operand asked item :: back →
      ∃ i, i = 2 * Count.operands front ∧ items[i]? = some item ∧
        asked = buffer.asked + (i + 1)) ∧
    (∀ front asked back, calls = front ++ .operator asked :: back →
      ∃ i, i + 2 = 2 * Count.operands front ∧ buffer.asked + (i + 1) ≤ asked ∧
        asked ≤ buffer.asked + (i + 1) + 1) ∧
    ∃ taken ≤ items.length, ends.1.2.remaining = (items.drop taken).map .item ∧
      ends.1.2.held.length ≤ 1 ∧
      ends.1.2.asked = buffer.asked + taken + ends.1.2.held.length ∧
      ∀ value, ends.1.1 = .ok value → taken + 1 = 2 * Count.operands calls := by
  intro grammar plain ends calls
  obtain ⟨hresult, called, taken, hpace, hvalue⟩ :=
    exists_inPace grammar hooks hbuffer hheld s
  refine ⟨⟨Prod.ext hresult hpace.buffer, hpace.user⟩, ?_, ?_, taken, hpace.pulled.le,
    hpace.pulled.remaining, hpace.pulled.held, hpace.pulled.asked, ?_⟩
  · intro front asked item back hcalls
    obtain ⟨hitem, hasked⟩ := hpace.timely front _ back hcalls
    exact ⟨_, rfl, hitem, hasked⟩
  · intro front asked back hcalls
    obtain ⟨last, hfront, hleast, hmost⟩ := hpace.timely front _ back hcalls
    exact ⟨2 * last, by omega, hleast, hmost⟩
  · intro value h
    rw [hvalue value h, ← hpace.called]
    rfl

/-- In a sum of a number and a product with one more number after it, that number has been pulled at
the calls for both operators, and nothing beyond it. -/
theorem runClimb_pulled_product :
    let items : List Kind := [.num, .op .plus, .num, .op .times, .num, .num]
    let reader : RuleReader String Kind Kind := ⟨.ok, fun _ => false, id⟩
    let grammar := (⟨Kind.groups, Kind.table⟩ : Climber Kind).grammar reader "empty" Kind.name
    let buffer : Buffer String Kind := .ofList items
    let ends := (runClimb grammar treeHooks.counted buffer).run ((), [])
    (buffer.remaining = items.map .item ∧ buffer.held = []) ∧
      (∀ front asked back, ends.2.2 = front ++ .operator asked :: back →
        ∃ i, i + 2 = 2 * Count.operands front ∧ buffer.asked + (i + 1) ≤ asked ∧
          asked ≤ buffer.asked + (i + 1) + 1) ∧
      ends.2.2 = [.operand 1 .num, .operand 3 .num, .operand 5 .num, .operator 6, .operator 6] := by
  intro items reader grammar buffer ends
  have hbuffer : buffer.remaining = items.map .item := rfl
  have hheld : buffer.held = [] := rfl
  refine ⟨⟨hbuffer, hheld⟩, ?_, rfl⟩
  exact (runClimb_pulled ⟨Kind.groups, Kind.table⟩ reader "empty" Kind.name treeHooks items buffer
    hbuffer hheld ()).2.2.1

end Precedence
