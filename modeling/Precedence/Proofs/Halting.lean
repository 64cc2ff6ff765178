import Mathlib
import Precedence.Proofs.Pulling

/-!
# Climbs come to an end

The loops of a climb are described once more without fuel, by rules for their rounds. From every state
each of them comes to one end, and with fuel for the outcomes that are still to be delivered it comes to
the same. What makes them end is that the climb which the inner loop starts takes the operator that
the loop has seen, and the item after it, or fails.

## Main definitions

- `takeOperand`, `seeCapture` — what a round of the outer loop, and one of the inner loop, begins with
- `Loop` — the two loops
- `Loop.Ends` — how a loop ends, by its rounds
- `Climbs` — how a climb ends
- `Spends` — for every call an item has been taken

## Main statements

- `Loop.Ends.spends` — a loop calls back no more often than it takes items
- `Loop.Ends.takes_operator` — what the climb takes that the inner loop starts
- `Loop.ends_within`, `Loop.Ends.unique` — a loop ends, and in one way only
- `Loop.ends_iff` — with fuel for its rounds it ends in the same way
- `runClimb_halts` — a climb ends, with at most as many calls as there are items

## Design notes

Feeds may pause and fail, rules may be unreadable, and callbacks may fail. Calls are counted by any
number that a call raises by at most one.
-/

namespace Precedence

variable {σ ε τ ρ α : Type}

/-! ### Calls and items -/

/-- The items that a buffer is still to deliver, pauses and failures left out. -/
def Buffer.itemsLeft (buffer : Buffer ε τ) : List τ :=
  buffer.remaining.filterMap Pull.item?

/-- A number that a call of a callback raises by at most one, and the observer does not raise. -/
structure Hooks.Counts (hooks : Hooks σ ε τ α) (calls : σ → Nat) : Prop where
  primary : ∀ n item s, calls ((hooks.primary n item).run.run s).2 ≤ calls s + 1
  combine : ∀ n left op right s, calls ((hooks.combine n left op right).run.run s).2 ≤ calls s + 1
  observe : ∀ note s, calls ((hooks.observe note).run s).2 ≤ calls s

theorem Hooks.counts_zero (hooks : Hooks σ ε τ α) : hooks.Counts fun _ => 0 :=
  ⟨fun _ _ _ => Nat.zero_le _, fun _ _ _ _ _ => Nat.zero_le _, fun _ _ => le_rfl⟩

/-- From one state of a climb to a later one, outcomes have been taken off the front of what the buffer
is to deliver. There have been fewer calls than there were items among them, by at least `spare`. -/
structure Spends (calls : σ → Nat) (spare : Nat) (s later : ClimbState σ ε τ) : Prop where
  suffix : later.buffer.remaining <:+ s.buffer.remaining
  le : calls later.user + spare + later.buffer.itemsLeft.length ≤
    calls s.user + s.buffer.itemsLeft.length

namespace Spends

variable {calls : σ → Nat} {spare more : Nat} {s middle later : ClimbState σ ε τ}

theorem trans (h : Spends calls spare s middle) (hlater : Spends calls more middle later) :
    Spends calls (spare + more) s later := by
  refine ⟨hlater.suffix.trans h.suffix, ?_⟩
  have := h.le
  have := hlater.le
  omega

/-- Where nothing is called, nothing is counted. -/
theorem of_suffix (hsuffix : later.buffer.remaining <:+ s.buffer.remaining)
    (huser : later.user = s.user) : Spends calls 0 s later := by
  refine ⟨hsuffix, ?_⟩
  have hle := (hsuffix.sublist.filterMap Pull.item?).length_le
  rw [huser, Nat.add_zero]
  exact Nat.add_le_add_left hle _

/-- An item that is taken may be called for. -/
theorem of_item {a : τ} (hitem : s.buffer.remaining = .item a :: later.buffer.remaining)
    (huser : later.user = s.user) : Spends calls 1 s later := by
  constructor
  · rw [hitem]
    exact List.suffix_cons _ _
  · have hleft : s.buffer.itemsLeft = a :: later.buffer.itemsLeft := by
      rw [Buffer.itemsLeft, hitem]
      rfl
    rw [huser, hleft, List.length_cons]
    omega

/-- A call uses up what is spare. -/
theorem call (h : Spends calls (spare + 1) s middle) (hbuffer : later.buffer = middle.buffer)
    (hcall : calls later.user ≤ calls middle.user + 1) : Spends calls spare s later := by
  constructor
  · rw [hbuffer]
    exact h.suffix
  · have := h.le
    rw [hbuffer]
    omega

theorem weaken (h : Spends calls spare s later) : Spends calls 0 s later := by
  refine ⟨h.suffix, ?_⟩
  have := h.le
  omega

theorem size_le (h : Spends calls spare s later) : later.buffer.size ≤ s.buffer.size :=
  h.suffix.length_le

end Spends

/-! ### What a round begins with -/

section

variable (grammar : Grammar ε τ) (hooks : Hooks σ ε τ α)

open ClimbM

/-- What a climb begins with: the first item is taken, and called for. -/
def takeFirst : ClimbM σ ε τ α := do
  match ← next with
  | none => throw grammar.emptyInput
  | some first => onUser (hooks.primary · first)

/-- The operand after an operator: both are taken, and the operand is called for. -/
def rightOperand (op : τ) : ClimbM σ ε τ α := do
  let _ ← next
  match ← next with
  | none => throw (grammar.missingOperand op)
  | some item => onUser (hooks.primary · item)

/-- What a round of the outer loop begins with: if the next item is an operator of at least the
precedence `floor`, it and its right operand are taken. -/
def takeOperand (floor : Nat) : ClimbM σ ε τ (Option (τ × Level × α)) := do
  match ← peekOperator grammar with
  | none => pure none
  | some (op, level) =>
    if level.prec < floor then pure none
    else do
      let operand ← rightOperand grammar hooks op
      pure (some (op, level, operand))

/-- What a round of the inner loop begins with: if the next item is an operator that takes the operand
away from one of precedence `prec`, the observer is told. -/
def seeCapture (prec : Nat) : ClimbM σ ε τ (Option (τ × Level)) := do
  match ← peekOperator grammar with
  | none => pure none
  | some (op, level) =>
    if level.captures prec then do
      noteStep hooks (.absorbing op level.prec)
      pure (some (op, level))
    else pure none

/-- A round of the outer loop. -/
theorem climbFrom_succ (fuel floor : Nat) (left : α) :
    climbFrom grammar hooks (fuel + 1) floor left = (do
      match ← takeOperand grammar hooks floor with
      | none => pure left
      | some (op, level, operand) =>
        let right ← absorb grammar hooks fuel level.prec operand
        let value ← combineStep hooks op level.prec left right
        climbFrom grammar hooks fuel floor value) := by
  rw [climbFrom_step, takeOperand, bind_assoc]
  refine bind_congr fun seen => ?_
  rcases seen with _ | ⟨op, level⟩
  · rfl
  · by_cases hfloor : level.prec < floor
    · simp only [if_pos hfloor, pure_bind]
    · simp only [if_neg hfloor, rightOperand, bind_assoc, pure_bind]
      refine bind_congr fun _ => bind_congr fun taken => ?_
      cases taken with
      | none => rfl
      | some item => simp only [bind_assoc, combineStep, noteStep]

/-- A round of the inner loop. -/
theorem absorb_succ (fuel prec : Nat) (right : α) :
    absorb grammar hooks (fuel + 1) prec right = (do
      match ← seeCapture grammar hooks prec with
      | none => pure right
      | some (_, level) =>
        let value ← climbFrom grammar hooks fuel level.prec right
        absorb grammar hooks fuel prec value) := by
  rw [absorb_step, seeCapture, bind_assoc]
  refine bind_congr fun seen => ?_
  rcases seen with _ | ⟨op, level⟩
  · rfl
  · by_cases hcaptures : level.captures prec = true
    · simp only [if_pos hcaptures, bind_assoc, pure_bind, noteStep]
    · simp only [if_neg hcaptures, pure_bind]

end

/-! ### What the steps spend -/

section

variable {grammar : Grammar ε τ} {hooks : Hooks σ ε τ α} {calls : σ → Nat}
  {s later : ClimbState σ ε τ} {op : τ} {level : Level} {rest : List (Pull ε τ)}

open ClimbM

/-- Taking an item leaves the others, and the state of the callbacks. -/
theorem next_spends (calls : σ → Nat) {taken : Except ε (Option τ)}
    (h : (next : ClimbM σ ε τ _).run.run s = (taken, later)) :
    Spends calls 0 s later ∧ ∀ a, taken = .ok (some a) →
      later.user = s.user ∧ s.buffer.remaining = .item a :: later.buffer.remaining := by
  have hsuffix := s.buffer.suffix_next
  rw [next, run_onBuffer] at h
  rcases hnext : s.buffer.next with ⟨outcome, buffer⟩
  rw [hnext] at h hsuffix
  cases outcome with
  | item a =>
    cases h
    refine ⟨.of_suffix hsuffix rfl, ?_⟩
    rintro _ ⟨⟩
    exact ⟨rfl, Buffer.remaining_of_next hnext⟩
  | ended detail =>
    cases h
    exact ⟨.of_suffix hsuffix rfl, by rintro _ ⟨⟩⟩
  | fault e =>
    cases h
    exact ⟨.of_suffix hsuffix rfl, by rintro _ ⟨⟩⟩

/-- A look leaves the state of the callbacks; an operator that it sees is next. -/
theorem peekOperator_spends (calls : σ → Nat) {seen : Except ε (Option (τ × Level))}
    (h : (peekOperator grammar : ClimbM σ ε τ _).run.run s = (seen, later)) :
    Spends calls 0 s later ∧ ∀ op level, seen = .ok (some (op, level)) →
      grammar.level? op = .ok (some level) ∧ later.user = s.user ∧
        ∃ rest, s.buffer.remaining = .item op :: rest ∧ later.buffer.remaining = .item op :: rest := by
  have hsuffix := s.buffer.suffix_peek
  rcases hpeek : s.buffer.peek with ⟨outcome, buffer⟩
  have hrun := run_onBuffer Buffer.peek s
  rw [peekOperator, run_bind, peek, hrun, hpeek] at h
  rw [hpeek] at hsuffix
  cases outcome with
  | item a =>
    dsimp only at h
    cases hlevel : grammar.level? a with
    | error e =>
      rw [hlevel] at h
      cases h
      exact ⟨.of_suffix hsuffix rfl, by rintro _ _ ⟨⟩⟩
    | ok level? =>
      rw [hlevel] at h
      cases h
      refine ⟨.of_suffix hsuffix rfl, fun op level hseen => ?_⟩
      obtain ⟨other, rfl, hother⟩ := Option.map_eq_some_iff.1 (Except.ok.inj hseen)
      cases hother
      exact ⟨hlevel, rfl, Buffer.remaining_of_peek hpeek⟩
  | ended detail =>
    cases h
    exact ⟨.of_suffix hsuffix rfl, by rintro _ _ ⟨⟩⟩
  | fault e =>
    cases h
    exact ⟨.of_suffix hsuffix rfl, by rintro _ _ ⟨⟩⟩

/-- A call for an item that has been taken. -/
theorem primary_spends (hcounts : hooks.Counts calls) {start : ClimbState σ ε τ} {item : τ}
    {spare : Nat} {operand : Except ε α} (hs : Spends calls (spare + 1) start s)
    (h : (onUser (hooks.primary · item) : ClimbM σ ε τ α).run.run s = (operand, later)) :
    Spends calls spare start later ∧ later.buffer = s.buffer := by
  rw [run_onUser] at h
  cases h
  exact ⟨hs.call rfl (hcounts.primary _ item s.user), rfl⟩

/-- The call for an operator whose sides are complete. -/
theorem combineStep_spends (hcounts : hooks.Counts calls) {start : ClimbState σ ε τ} {prec : Nat}
    {left right : α} {spare : Nat} {value : Except ε α} (hs : Spends calls (spare + 1) start s)
    (h : (combineStep hooks op prec left right).run.run s = (value, later)) :
    Spends calls spare start later ∧ later.buffer = s.buffer := by
  rw [combineStep, noteStep, run_bind, run_onUser, run_lift] at h
  dsimp only at h
  rw [run_onUser] at h
  cases h
  refine ⟨hs.call rfl ?_, rfl⟩
  have hobserve := hcounts.observe (.reducing op prec) s.user
  exact (hcounts.combine _ left op right _).trans (Nat.add_le_add_right hobserve 1)

/-- The first item is taken before it is called for. -/
theorem takeFirst_spends (hcounts : hooks.Counts calls) {left : Except ε α}
    (h : (takeFirst grammar hooks).run.run s = (left, later)) : Spends calls 0 s later := by
  rw [takeFirst, run_bind] at h
  rcases hnext : (next : ClimbM σ ε τ _).run.run s with ⟨_ | _ | first, s₁⟩
  all_goals
    rw [hnext] at h
    obtain ⟨hspends, hitem⟩ := next_spends calls hnext
  · cases h
    exact hspends
  · cases h
    exact hspends
  · obtain ⟨huser, hremaining⟩ := hitem first rfl
    exact (primary_spends hcounts (.of_item hremaining huser) h).1

/-- Where an operator is next, the item after it is the operand. -/
theorem rightOperand_spends (hcounts : hooks.Counts calls) {operand : Except ε α}
    (hop : s.buffer.remaining = .item op :: rest)
    (h : (rightOperand grammar hooks op).run.run s = (operand, later)) :
    Spends calls 0 s later ∧ ∀ value, operand = .ok value →
      Spends calls 1 s later ∧ ∃ item, rest = .item item :: later.buffer.remaining := by
  have hrest := (Buffer.next_of_remaining_cons hop).2
  rw [rightOperand, run_bind_ok (run_next_of_cons hop), run_bind] at h
  have htaken : Spends calls 1 s (⟨s.buffer.next.2, s.user⟩ : ClimbState σ ε τ) :=
    .of_item (hop.trans (congrArg _ hrest.symm)) rfl
  rcases hitem : (next : ClimbM σ ε τ _).run.run (⟨s.buffer.next.2, s.user⟩ : ClimbState σ ε τ) with
    ⟨_ | _ | item, s₂⟩
  all_goals
    rw [hitem] at h
    obtain ⟨hspends, hfound⟩ := next_spends calls hitem
  · cases h
    exact ⟨(htaken.trans hspends).weaken, nofun⟩
  · cases h
    exact ⟨(htaken.trans hspends).weaken, nofun⟩
  · obtain ⟨huser, hremaining⟩ := hfound item rfl
    obtain ⟨hcall, hbuffer⟩ := primary_spends hcounts (htaken.trans (.of_item hremaining huser)) h
    refine ⟨hcall.weaken, fun value _ => ⟨hcall, item, ?_⟩⟩
    rw [hbuffer, ← hremaining, hrest]

/-- A round of the outer loop that takes an operator takes the item after it as well, and calls for that
item only. -/
theorem takeOperand_spends (hcounts : hooks.Counts calls) {floor : Nat}
    {taken : Except ε (Option (τ × Level × α))}
    (h : (takeOperand grammar hooks floor).run.run s = (taken, later)) :
    Spends calls 0 s later ∧ ∀ op level operand, taken = .ok (some (op, level, operand)) →
      Spends calls 1 s later ∧
        ∃ item, s.buffer.remaining = .item op :: .item item :: later.buffer.remaining := by
  rw [takeOperand, run_bind] at h
  rcases hseen : (peekOperator grammar : ClimbM σ ε τ _).run.run s with ⟨_ | _ | ⟨op, level⟩, s₁⟩
  all_goals
    rw [hseen] at h
    obtain ⟨hpeek, hop⟩ := peekOperator_spends calls hseen
  · cases h
    exact ⟨hpeek, nofun⟩
  · cases h
    exact ⟨hpeek, nofun⟩
  · obtain ⟨-, huser, rest, hrest, hrest₁⟩ := hop op level rfl
    dsimp only at h
    by_cases hfloor : level.prec < floor
    · rw [if_pos hfloor] at h
      cases h
      exact ⟨hpeek, nofun⟩
    · rw [if_neg hfloor, run_bind] at h
      rcases hright : (rightOperand grammar hooks op).run.run s₁ with ⟨_ | operand, s₂⟩
      all_goals
        rw [hright] at h
        obtain ⟨hspends, hitem⟩ := rightOperand_spends hcounts hrest₁ hright
        cases h
      · exact ⟨hpeek.trans hspends, nofun⟩
      · obtain ⟨htaken, item, hlater⟩ := hitem operand rfl
        refine ⟨hpeek.trans hspends, ?_⟩
        rintro _ _ _ ⟨⟩
        exact ⟨hpeek.trans htaken, item, by rw [hrest, hlater]⟩

/-- A round of the outer loop takes the next item if that is an operator of at least the precedence
that the loop is for. -/
theorem takeOperand_ne_none {floor : Nat} (hop : s.buffer.remaining = .item op :: rest)
    (hlevel : grammar.level? op = .ok (some level)) (hfloor : floor ≤ level.prec) :
    (takeOperand grammar hooks floor).run.run s ≠ (.ok none, later) := by
  rw [takeOperand, run_bind_ok (run_peekOperator_of_cons hop hlevel)]
  dsimp only
  rw [if_neg (not_lt.2 hfloor), run_bind]
  rcases (rightOperand grammar hooks op).run.run
    (⟨s.buffer.peek.2, s.user⟩ : ClimbState σ ε τ) with ⟨_ | operand, s₁⟩
  · exact nofun
  · exact nofun

/-- A round of the inner loop takes nothing; an operator that it has seen is next. -/
theorem seeCapture_spends (hcounts : hooks.Counts calls) {prec : Nat}
    {seen : Except ε (Option (τ × Level))}
    (h : (seeCapture grammar hooks prec).run.run s = (seen, later)) :
    Spends calls 0 s later ∧ ∀ op level, seen = .ok (some (op, level)) →
      grammar.level? op = .ok (some level) ∧ ∃ rest, later.buffer.remaining = .item op :: rest := by
  rw [seeCapture, run_bind] at h
  rcases hseen : (peekOperator grammar : ClimbM σ ε τ _).run.run s with ⟨_ | _ | ⟨op, level⟩, s₁⟩
  all_goals
    rw [hseen] at h
    obtain ⟨hpeek, hop⟩ := peekOperator_spends calls hseen
  · cases h
    exact ⟨hpeek, nofun⟩
  · cases h
    exact ⟨hpeek, nofun⟩
  · obtain ⟨hlevel, huser, rest, hrest, hrest₁⟩ := hop op level rfl
    dsimp only at h
    by_cases hcaptures : level.captures prec = true
    · rw [if_pos hcaptures, noteStep, run_bind, run_onUser, run_lift] at h
      cases h
      have hobserve := hcounts.observe (.absorbing op level.prec) s₁.user
      refine ⟨⟨hpeek.suffix, (Nat.add_le_add_right hobserve _).trans hpeek.le⟩, ?_⟩
      rintro _ _ ⟨⟩
      exact ⟨hlevel, rest, hrest₁⟩
    · rw [if_neg hcaptures] at h
      cases h
      exact ⟨hpeek, nofun⟩

end

/-! ### Loops without fuel -/

/-- The loops of a climb: the outer one takes operators of at least a precedence, and the inner one
those that take the operand away from an operator of a precedence. -/
inductive Loop where
  | outer (floor : Nat)
  | inner (prec : Nat)

namespace Loop

section

variable (grammar : Grammar ε τ) (hooks : Hooks σ ε τ α)

/-- How a loop ends that starts with a value in a state. A round that does not begin ends the loop with
the value, a failure ends it with the failure, and otherwise the loop goes on after the round. -/
inductive Ends : Loop → α → ClimbState σ ε τ → Except ε α × ClimbState σ ε τ → Prop
  | outerFails {floor left s e s'}
      (hbegin : (takeOperand grammar hooks floor).run.run s = (.error e, s')) :
      Ends (.outer floor) left s (.error e, s')
  | outerStops {floor left s s'}
      (hbegin : (takeOperand grammar hooks floor).run.run s = (.ok none, s')) :
      Ends (.outer floor) left s (.ok left, s')
  | sideFails {floor left s op level operand s₁ e s'}
      (hbegin : (takeOperand grammar hooks floor).run.run s = (.ok (some (op, level, operand)), s₁))
      (hside : Ends (.inner level.prec) operand s₁ (.error e, s')) :
      Ends (.outer floor) left s (.error e, s')
  | combineFails {floor left s op level operand s₁ right s₂ e s'}
      (hbegin : (takeOperand grammar hooks floor).run.run s = (.ok (some (op, level, operand)), s₁))
      (hside : Ends (.inner level.prec) operand s₁ (.ok right, s₂))
      (hcombine : (combineStep hooks op level.prec left right).run.run s₂ = (.error e, s')) :
      Ends (.outer floor) left s (.error e, s')
  | outerRound {floor left s op level operand s₁ right s₂ value s₃ ends}
      (hbegin : (takeOperand grammar hooks floor).run.run s = (.ok (some (op, level, operand)), s₁))
      (hside : Ends (.inner level.prec) operand s₁ (.ok right, s₂))
      (hcombine : (combineStep hooks op level.prec left right).run.run s₂ = (.ok value, s₃))
      (hrest : Ends (.outer floor) value s₃ ends) :
      Ends (.outer floor) left s ends
  | innerFails {prec right s e s'}
      (hbegin : (seeCapture grammar hooks prec).run.run s = (.error e, s')) :
      Ends (.inner prec) right s (.error e, s')
  | innerStops {prec right s s'}
      (hbegin : (seeCapture grammar hooks prec).run.run s = (.ok none, s')) :
      Ends (.inner prec) right s (.ok right, s')
  | callFails {prec right s op level s₁ e s'}
      (hbegin : (seeCapture grammar hooks prec).run.run s = (.ok (some (op, level)), s₁))
      (hcall : Ends (.outer level.prec) right s₁ (.error e, s')) :
      Ends (.inner prec) right s (.error e, s')
  | innerRound {prec right s op level s₁ value s₂ ends}
      (hbegin : (seeCapture grammar hooks prec).run.run s = (.ok (some (op, level)), s₁))
      (hcall : Ends (.outer level.prec) right s₁ (.ok value, s₂))
      (hrest : Ends (.inner prec) value s₂ ends) :
      Ends (.inner prec) right s ends

/-- A loop of at most `fuel` rounds, each of them with loops of fewer rounds. -/
def within (fuel : Nat) : Loop → α → ClimbM σ ε τ α
  | outer floor => climbFrom grammar hooks fuel floor
  | inner prec => absorb grammar hooks fuel prec

/-- A number of rounds that a loop does not come to in a state. -/
def rounds (s : ClimbState σ ε τ) : Loop → Nat
  | outer _ => s.buffer.size
  | inner _ => s.buffer.size + 1

theorem rounds_le (s : ClimbState σ ε τ) (loop : Loop) : loop.rounds s ≤ s.buffer.size + 1 := by
  cases loop with
  | outer floor => exact Nat.le_succ _
  | inner prec => exact le_rfl

end

variable {grammar : Grammar ε τ} {hooks : Hooks σ ε τ α} {calls : σ → Nat} {loop : Loop} {value : α}
  {s : ClimbState σ ε τ} {ends : Except ε α × ClimbState σ ε τ}

/-- There are no more calls during a loop than items that it takes. -/
theorem Ends.spends (hcounts : hooks.Counts calls) (h : Ends grammar hooks loop value s ends) :
    Spends calls 0 s ends.2 := by
  induction h with
  | outerFails hbegin => exact (takeOperand_spends hcounts hbegin).1
  | outerStops hbegin => exact (takeOperand_spends hcounts hbegin).1
  | sideFails hbegin _ ihSide => exact (takeOperand_spends hcounts hbegin).1.trans ihSide
  | combineFails hbegin _ hcombine ihSide =>
    obtain ⟨htaken, -⟩ := (takeOperand_spends hcounts hbegin).2 _ _ _ rfl
    have hsides : Spends calls 1 _ _ := htaken.trans ihSide
    exact (combineStep_spends hcounts hsides hcombine).1
  | outerRound hbegin _ hcombine _ ihSide ihRest =>
    -- The operator and its operand are two items, which are called for once each.
    obtain ⟨htaken, -⟩ := (takeOperand_spends hcounts hbegin).2 _ _ _ rfl
    have hsides : Spends calls 1 _ _ := htaken.trans ihSide
    exact (combineStep_spends hcounts hsides hcombine).1.trans ihRest
  | innerFails hbegin => exact (seeCapture_spends hcounts hbegin).1
  | innerStops hbegin => exact (seeCapture_spends hcounts hbegin).1
  | callFails hbegin _ ihCall => exact (seeCapture_spends hcounts hbegin).1.trans ihCall
  | innerRound hbegin _ _ ihCall ihRest =>
    exact ((seeCapture_spends hcounts hbegin).1.trans ihCall).trans ihRest

/-- A round of the outer loop that takes an operator leaves two outcomes fewer, of which one is the
operator. -/
theorem suffix_of_round {floor : Nat} {op : τ} {level : Level} {left operand right value : α}
    {s₁ s₂ s₃ : ClimbState σ ε τ}
    (hbegin : (takeOperand grammar hooks floor).run.run s = (.ok (some (op, level, operand)), s₁))
    (hside : Ends grammar hooks (.inner level.prec) operand s₁ (.ok right, s₂))
    (hcombine : (combineStep hooks op level.prec left right).run.run s₂ = (.ok value, s₃)) :
    ∃ item taken, s.buffer.remaining = .item op :: .item item :: (taken ++ s₃.buffer.remaining) := by
  obtain ⟨htaken, item, hitem⟩ := (takeOperand_spends hooks.counts_zero hbegin).2 _ _ _ rfl
  have hsides : Spends (fun _ => 0) 1 s s₂ := htaken.trans (hside.spends hooks.counts_zero)
  have hbuffer := (combineStep_spends hooks.counts_zero hsides hcombine).2
  obtain ⟨taken, hrest⟩ := (hside.spends hooks.counts_zero).suffix
  refine ⟨item, taken, ?_⟩
  rw [hitem, hbuffer, hrest]

/-- The climb that a round of the inner loop starts does not stop before the operator that the loop has
seen: it takes the operator and the item after it, unless it fails. -/
theorem Ends.takes_operator {prec : Nat} {op : τ} {level : Level} {right : α}
    {s₁ s₂ : ClimbState σ ε τ}
    (hbegin : (seeCapture grammar hooks prec).run.run s = (.ok (some (op, level)), s₁))
    (hcall : Ends grammar hooks (.outer level.prec) right s₁ (.ok value, s₂)) :
    ∃ item taken, s₁.buffer.remaining = .item op :: .item item :: (taken ++ s₂.buffer.remaining) := by
  obtain ⟨hlevel, rest, hop⟩ := (seeCapture_spends hooks.counts_zero hbegin).2 op level rfl
  cases hcall with
  | outerStops hstops => exact absurd hstops (takeOperand_ne_none hop hlevel le_rfl)
  | outerRound htake hside hcombine hrest =>
    obtain ⟨item, taken, hround⟩ := suffix_of_round htake hside hcombine
    obtain ⟨more, hmore⟩ := (hrest.spends hooks.counts_zero).suffix
    -- Both have been seen at the same place, so the operator that is taken is the same.
    obtain rfl := Pull.item.inj (List.cons.inj (hop.symm.trans hround)).1
    refine ⟨item, taken ++ more, ?_⟩
    rw [hround, List.append_assoc, hmore]

theorem size_add_two_le {later : ClimbState σ ε τ} {first second : Pull ε τ} {rest : List (Pull ε τ)}
    (h : s.buffer.remaining = first :: second :: rest) (hrest : later.buffer.remaining <:+ rest) :
    later.buffer.size + 2 ≤ s.buffer.size := by
  have hlength := hrest.length_le
  rw [Buffer.size, Buffer.size, h, List.length_cons, List.length_cons]
  omega

variable (grammar hooks) in
/-- With so much fuel, every loop with fewer rounds to come ends as it does without fuel. -/
def EndsWithin (fuel : Nat) : Prop :=
  ∀ (loop : Loop) (value : α) (s : ClimbState σ ε τ), loop.rounds s < fuel →
    Ends grammar hooks loop value s ((loop.within grammar hooks fuel value).run.run s)

/-- A round of the outer loop leaves fewer rounds to come. -/
theorem ends_climbFrom_succ {fuel : Nat} (ih : EndsWithin grammar hooks fuel) (floor : Nat)
    (left : α) (hfuel : s.buffer.size < fuel + 1) :
    Ends grammar hooks (.outer floor) left s
      ((climbFrom grammar hooks (fuel + 1) floor left).run.run s) := by
  rw [climbFrom_succ, run_bind]
  rcases hbegin : (takeOperand grammar hooks floor).run.run s with
    ⟨_ | _ | ⟨op, level, operand⟩, s₁⟩
  · exact .outerFails hbegin
  · exact .outerStops hbegin
  · obtain ⟨-, item, hitem⟩ := (takeOperand_spends hooks.counts_zero hbegin).2 _ _ _ rfl
    have hsize : s₁.buffer.size + 2 ≤ s.buffer.size := size_add_two_le hitem List.suffix_rfl
    have hside := ih (.inner level.prec) operand s₁ (by rw [rounds]; omega)
    dsimp only
    rw [within] at hside
    rw [run_bind]
    rcases hright : (absorb grammar hooks fuel level.prec operand).run.run s₁ with ⟨_ | right, s₂⟩
    all_goals rw [hright] at hside
    · exact .sideFails hbegin hside
    · dsimp only
      rw [run_bind]
      rcases hcombine : (combineStep hooks op level.prec left right).run.run s₂ with
        ⟨_ | value, s₃⟩
      · exact .combineFails hbegin hside hcombine
      · obtain ⟨_, _, hround⟩ := suffix_of_round hbegin hside hcombine
        have hless : s₃.buffer.size + 2 ≤ s.buffer.size :=
          size_add_two_le hround (List.suffix_append _ _)
        exact .outerRound hbegin hside hcombine (ih (.outer floor) value s₃ (by rw [rounds]; omega))

/-- A round of the inner loop leaves fewer rounds to come, as the climb that it starts takes items. -/
theorem ends_absorb_succ {fuel : Nat} (ih : EndsWithin grammar hooks fuel) (prec : Nat) (right : α)
    (hfuel : s.buffer.size + 1 < fuel + 1) :
    Ends grammar hooks (.inner prec) right s
      ((absorb grammar hooks (fuel + 1) prec right).run.run s) := by
  rw [absorb_succ, run_bind]
  rcases hbegin : (seeCapture grammar hooks prec).run.run s with ⟨_ | _ | ⟨op, level⟩, s₁⟩
  · exact .innerFails hbegin
  · exact .innerStops hbegin
  · have hsize := (seeCapture_spends hooks.counts_zero hbegin).1.size_le
    have hcall := ih (.outer level.prec) right s₁ (by rw [rounds]; omega)
    dsimp only
    rw [within] at hcall
    rw [run_bind]
    rcases hvalue : (climbFrom grammar hooks fuel level.prec right).run.run s₁ with ⟨_ | value, s₂⟩
    all_goals rw [hvalue] at hcall
    · exact .callFails hbegin hcall
    · obtain ⟨_, _, htaken⟩ := hcall.takes_operator hbegin
      have hless : s₂.buffer.size + 2 ≤ s₁.buffer.size :=
        size_add_two_le htaken (List.suffix_append _ _)
      exact .innerRound hbegin hcall (ih (.inner prec) value s₂ (by rw [rounds]; omega))

variable (grammar hooks) in
/-- Every loop ends, as it does with fuel for its rounds. -/
theorem ends_within (fuel : Nat) : EndsWithin grammar hooks fuel := by
  induction fuel with
  | zero => exact fun _ _ _ hfuel => absurd hfuel (Nat.not_lt_zero _)
  | succ fuel ih =>
    intro loop value s hfuel
    cases loop with
    | outer floor => exact ends_climbFrom_succ ih floor value hfuel
    | inner prec => exact ends_absorb_succ ih prec value hfuel

/-- A loop ends in one way only. -/
theorem Ends.unique {ends' : Except ε α × ClimbState σ ε τ}
    (h : Ends grammar hooks loop value s ends) (h' : Ends grammar hooks loop value s ends') :
    ends = ends' := by
  -- What a round begins with decides by which rule it goes on.
  induction h generalizing ends' with
  | outerFails hbegin => cases h' <;> grind
  | outerStops hbegin => cases h' <;> grind
  | sideFails hbegin _ ihSide => cases h' <;> grind
  | combineFails hbegin _ hcombine ihSide => cases h' <;> grind
  | outerRound hbegin _ hcombine _ ihSide ihRest => cases h' <;> grind
  | innerFails hbegin => cases h' <;> grind
  | innerStops hbegin => cases h' <;> grind
  | callFails hbegin _ ihCall => cases h' <;> grind
  | innerRound hbegin _ _ ihCall ihRest => cases h' <;> grind

/-- With fuel for its rounds, a loop ends in the one way in which it ends without. -/
theorem ends_iff {fuel : Nat} (hfuel : loop.rounds s < fuel) :
    Ends grammar hooks loop value s ends ↔
      (loop.within grammar hooks fuel value).run.run s = ends := by
  have hwithin := ends_within grammar hooks fuel loop value s hfuel
  constructor
  · exact fun h => hwithin.unique h
  · rintro rfl
    exact hwithin

end Loop

/-! ### Climbs without fuel -/

/-- How a climb ends: as the call for the first item does if that fails, and else as the outer loop
does. -/
inductive Climbs (grammar : Grammar ε τ) (hooks : Hooks σ ε τ α) :
    ClimbState σ ε τ → Except ε α × ClimbState σ ε τ → Prop
  | fails {s e s'} (hfirst : (takeFirst grammar hooks).run.run s = (.error e, s')) :
      Climbs grammar hooks s (.error e, s')
  | loops {s left s₁ ends} (hfirst : (takeFirst grammar hooks).run.run s = (.ok left, s₁))
      (hloop : Loop.Ends grammar hooks (.outer 0) left s₁ ends) : Climbs grammar hooks s ends

section

variable {grammar : Grammar ε τ} {hooks : Hooks σ ε τ α} {calls : σ → Nat}
  {s : ClimbState σ ε τ} {ends : Except ε α × ClimbState σ ε τ}

open ClimbM

theorem climb_eq : climb grammar hooks = (do
    let left ← takeFirst grammar hooks
    let state ← get
    climbFrom grammar hooks (state.buffer.size + 2) 0 left) := by
  rw [climb_step, takeFirst, bind_assoc]
  refine bind_congr fun taken => ?_
  cases taken with
  | none => rfl
  | some first => rfl

theorem climbs_iff : Climbs grammar hooks s ends ↔ (climb grammar hooks).run.run s = ends := by
  rw [climb_eq, run_bind]
  rcases hfirst : (takeFirst grammar hooks).run.run s with ⟨_ | left, s₁⟩
  · constructor
    · intro h
      cases h with
      | fails h => exact hfirst.symm.trans h
      | loops h _ => cases hfirst.symm.trans h
    · rintro rfl
      exact .fails hfirst
  · have hfuel : (Loop.outer 0).rounds s₁ < s₁.buffer.size + 2 := by
      rw [Loop.rounds]
      omega
    have hiff := @Loop.ends_iff _ _ _ _ grammar hooks (.outer 0) left s₁ ends _ hfuel
    dsimp only
    rw [run_bind_ok (run_get s₁)]
    constructor
    · intro h
      cases h with
      | fails h => cases hfirst.symm.trans h
      | loops h hloop =>
        cases hfirst.symm.trans h
        exact hiff.1 hloop
    · intro h
      exact .loops hfirst (hiff.2 h)

theorem Climbs.spends (hcounts : hooks.Counts calls) (h : Climbs grammar hooks s ends) :
    Spends calls 0 s ends.2 := by
  cases h with
  | fails hfirst => exact takeFirst_spends hcounts hfirst
  | loops hfirst hloop => exact (takeFirst_spends hcounts hfirst).trans (hloop.spends hcounts)

/-- Recorded calls are counted. -/
theorem Hooks.counted_counts (hooks : Hooks σ ε τ α) :
    hooks.counted.Counts fun state => state.2.length := by
  constructor
  · intro n item s
    rw [Hooks.counted, run_beside, List.length_append]
    exact le_rfl
  · intro n left op right s
    rw [Hooks.counted, run_beside, List.length_append]
    exact le_rfl
  · exact fun note s => le_rfl

/-- Recording the calls makes no difference. -/
theorem Hooks.counted_likeAt (hooks : Hooks σ ε τ α) :
    Hooks.LikeAt Eq Eq Eq (fun s t => s.1 = t) hooks.counted hooks where
  primary := by
    rintro n _ item _ rfl rfl
    refine Act.Like.of_fst_eq (fun _ => rfl) ?_
    rintro s _ rfl
    simp [Hooks.counted]
  combine := by
    rintro n _ left _ op _ right _ rfl rfl rfl rfl
    refine Act.Like.of_fst_eq (fun _ => rfl) ?_
    rintro s _ rfl
    simp [Hooks.counted]
  absorbing := by
    rintro op _ prec rfl s _ rfl
    rfl
  reducing := by
    rintro op _ prec rfl s _ rfl
    rfl

end

/-- Every loop of a climb ends, and in one way only, which is that in which it ends with fuel for the
outcomes that are still to be delivered. The climb that the inner loop starts at an operator takes this
operator and the item after it, unless it fails. So a climb ends, and it has called back no more often
than it has taken items. -/
theorem runClimb_halts [RuleKey ρ] (climber : Climber ρ) (reader : RuleReader ε τ ρ) (emptyInput : ε)
    (missingOperand : τ → ε) (hooks : Hooks σ ε τ α) :
    let grammar := climber.grammar reader emptyInput missingOperand
    (∀ prec op level right value (s s₁ s₂ : ClimbState σ ε τ),
      (seeCapture grammar hooks prec).run.run s = (.ok (some (op, level)), s₁) →
      Loop.Ends grammar hooks (.outer level.prec) right s₁ (.ok value, s₂) →
        ∃ item taken,
          s₁.buffer.remaining = .item op :: .item item :: (taken ++ s₂.buffer.remaining)) ∧
    (∀ loop value (s : ClimbState σ ε τ), ∃ ends,
      (∀ other, Loop.Ends grammar hooks loop value s other ↔ other = ends) ∧
      ∀ fuel, s.buffer.size + 1 < fuel →
        (loop.within grammar hooks fuel value).run.run s = ends) ∧
    ∀ (buffer : Buffer ε τ) s,
      let plain := (runClimb grammar hooks buffer).run s
      let counted := (runClimb grammar hooks.counted buffer).run (s, [])
      (∀ ends, Climbs grammar hooks ⟨buffer, s⟩ ends ↔
        ends = (plain.1.1, ⟨plain.1.2, plain.2⟩)) ∧
      (counted.1 = plain.1 ∧ counted.2.1 = plain.2) ∧
      counted.2.2.length + plain.1.2.itemsLeft.length ≤ buffer.itemsLeft.length := by
  intro grammar
  refine ⟨fun prec op level right value s s₁ s₂ hsee hcall => hcall.takes_operator hsee,
    fun loop value s => ?_, fun buffer s => ?_⟩
  · have hends {fuel : Nat} (hfuel : s.buffer.size + 1 < fuel) :
        Loop.Ends grammar hooks loop value s ((loop.within grammar hooks fuel value).run.run s) :=
      Loop.ends_within grammar hooks fuel loop value s ((loop.rounds_le s).trans_lt hfuel)
    have hleast := hends (Nat.lt_succ_self _)
    refine ⟨_, fun other => ⟨fun h => h.unique hleast, ?_⟩, fun fuel hfuel => ?_⟩
    · rintro rfl
      exact hleast
    · exact (hends hfuel).unique hleast
  · obtain ⟨hresult, hbuffer, huser⟩ :=
      (climb_same grammar hooks.counted_likeAt).fst_eq (s := ⟨buffer, s, []⟩) (t := ⟨buffer, s⟩)
        ⟨rfl, rfl⟩
    have hspends := (climbs_iff.2 rfl : Climbs grammar hooks.counted ⟨buffer, s, []⟩ _).spends
      hooks.counted_counts
    simp only [run_runClimb]
    refine ⟨fun ends => climbs_iff.trans eq_comm, ⟨Prod.ext hresult hbuffer, huser⟩, ?_⟩
    have hle := hspends.le
    rw [hbuffer] at hle
    simpa using hle

/-- After a sum of two numbers a times takes the second one away. The climb that it starts takes the
times and the number after it, and leaves the minus. -/
theorem runClimb_halts_times :
    let reader : RuleReader String Kind Kind := ⟨.ok, fun _ => false, id⟩
    let grammar := (⟨Kind.groups, Kind.table⟩ : Climber Kind).grammar reader "empty" Kind.name
    let s : ClimbState Unit String Kind := ⟨.ofList [.op .times, .num, .op .minus, .num], ()⟩
    let s₁ : ClimbState Unit String Kind := ⟨s.buffer.peek.2, ()⟩
    let s₂ : ClimbState Unit String Kind := ⟨s₁.buffer.next.2.next.2.peek.2, ()⟩
    let product : Tree Kind := .node (.op .times) (.leaf .num) (.leaf .num)
    (seeCapture grammar treeHooks 1).run.run s = (.ok (some (.op .times, ⟨2, .left⟩)), s₁) ∧
      Loop.Ends grammar treeHooks (.outer 2) (.leaf .num) s₁ (.ok product, s₂) ∧
      s₂.buffer.remaining = [Kind.op .minus, .num].map .item ∧
      ∃ item taken,
        s₁.buffer.remaining = .item (.op .times) :: .item item :: (taken ++ s₂.buffer.remaining) := by
  intro reader grammar s s₁ s₂ product
  have hsee : (seeCapture grammar treeHooks 1).run.run s =
      (.ok (some (.op .times, ⟨2, .left⟩)), s₁) := rfl
  have hends : Loop.Ends grammar treeHooks (.outer 2) (.leaf .num) s₁ (.ok product, s₂) :=
    (Loop.ends_iff (Nat.lt_succ_self 4)).2 rfl
  exact ⟨hsee, hends, rfl, (runClimb_halts ⟨Kind.groups, Kind.table⟩ reader "empty" Kind.name
    treeHooks).1 1 _ _ _ _ s s₁ s₂ hsee hends⟩

end Precedence
