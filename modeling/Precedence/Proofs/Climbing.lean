import Mathlib
import Precedence.Proofs.Bracketing
import Precedence.Proofs.Lookahead

/-!
# What a climb computes

The loops of a climb and the recursion between them run the bracketing of the whole chain: every
operand is taken, and looked beyond, when the bracketing comes to it, and two values are combined
when both sides of an operator are complete.

## Main definitions

- `upcoming` — the links of the chain that a list of items begins with
- `operandStep`, `combineStep` — what a climb does for an operand, and for an operator
- `Shadow` — actions that go along with these steps
- `OuterCoupled`, `InnerCoupled` — the loops go along with the bracketing of what they take

## Main statements

- `outerCoupled_succ`, `innerCoupled_succ` — a round of either loop
- `loops_coupled` — both loops go along with bracketings of parts of the chain
- `climb_coupled` — a climb goes along with the bracketing of its chain

## Design notes

The loops look at the same operator again and again while they return. Between the steps the buffer
is therefore kept in a state in which a look changes nothing.

Nothing is said about what the steps do with states and values: any actions that go along with the
steps, in bracketing order, go along with the climb.
-/

namespace Precedence

variable {σ σ' ε ε' τ α β : Type}

/-! ### The chain in a list of items -/

/-- The links of the chain that goes on with the given items: an operator and the item after it, as
long as there is an operator. The action of an operand is told the items from the operator on; the
last operator may lack an operand. -/
def upcoming (level? : τ → Except ε (Option Level)) (act : List τ → β) : List τ → List (Link τ β)
  | [] => []
  | [op] =>
    match level? op with
    | .ok (some level) => [⟨op, level, act [op]⟩]
    | _ => []
  | op :: item :: rest =>
    match level? op with
    | .ok (some level) => ⟨op, level, act (op :: item :: rest)⟩ :: upcoming level? act rest
    | _ => []

section

variable {level? : τ → Except ε (Option Level)} {act : List τ → β}

theorem upcoming_cons {op : τ} {level : Level} (rest : List τ)
    (h : level? op = .ok (some level)) :
    upcoming level? act (op :: rest) =
      ⟨op, level, act (op :: rest)⟩ :: upcoming level? act rest.tail := by
  cases rest <;> simp [upcoming, h]

theorem upcoming_eq_nil {op : τ} (rest : List τ) (h : ∀ level, level? op ≠ .ok (some level)) :
    upcoming level? act (op :: rest) = [] := by
  cases rest <;>
  · rw [upcoming]
    split
    · next level hlevel => exact absurd hlevel (h level)
    · rfl

/-- A chain that is not empty comes from an operator. -/
theorem exists_of_upcoming_eq_cons {items : List τ} {link : Link τ β} {links : List (Link τ β)}
    (h : upcoming level? act items = link :: links) :
    ∃ rest, items = link.op :: rest ∧ level? link.op = .ok (some link.level) ∧
      link.operand = act items ∧ upcoming level? act rest.tail = links := by
  cases items with
  | nil => simp [upcoming] at h
  | cons op rest =>
    by_cases hop : ∃ level, level? op = .ok (some level)
    · obtain ⟨level, hlevel⟩ := hop
      rw [upcoming_cons rest hlevel, List.cons.injEq] at h
      obtain ⟨rfl, htail⟩ := h
      exact ⟨rest, rfl, hlevel, rfl, htail⟩
    · rw [upcoming_eq_nil rest fun level hlevel => hop ⟨level, hlevel⟩] at h
      simp at h

theorem upcoming_map {υ : Type} (g : υ → τ) (items : List υ) :
    upcoming level? act (items.map g) =
      (upcoming (level? ∘ g) (act ∘ List.map g) items).map (Link.map g id) := by
  fun_induction upcoming (level? ∘ g) (act ∘ List.map g) items with
  | case1 => rfl
  | case2 op level h => exact upcoming_cons [] h
  | case3 op h => exact upcoming_eq_nil [] h
  | case4 op item rest level h ih =>
    have hlevel : level? (g op) = .ok (some level) := h
    rw [List.map_cons, List.map_cons, upcoming_cons _ hlevel, List.tail_cons, ih]
    rfl
  | case5 op item rest h => exact upcoming_eq_nil _ h

theorem upcoming_id (items : List τ) :
    upcoming level? act items = (upcoming level? id items).map (Link.map id act) := by
  fun_induction upcoming level? id items with
  | case1 => rfl
  | case2 op level h => exact upcoming_cons [] h
  | case3 op h => exact upcoming_eq_nil [] h
  | case4 op item rest level h ih =>
    rw [upcoming_cons _ h, List.tail_cons, ih]
    rfl
  | case5 op item rest h => exact upcoming_eq_nil _ h

/-- Every link of a chain has an operator, which begins the items that its operand is found by. -/
theorem mem_upcoming_id {items : List τ} {link : Link τ (List τ)}
    (h : link ∈ upcoming level? id items) :
    level? link.op = .ok (some link.level) ∧
      (∃ rest, link.operand = link.op :: rest) ∧ ∀ item ∈ link.operand, item ∈ items := by
  fun_induction upcoming level? id items with
  | case1 => simp at h
  | case2 op level hop =>
    obtain rfl := List.mem_singleton.1 h
    exact ⟨hop, ⟨[], rfl⟩, fun _ hother => hother⟩
  | case3 op hop => simp at h
  | case4 op item rest level hop ih =>
    rcases List.mem_cons.1 h with rfl | hmem
    · exact ⟨hop, ⟨item :: rest, rfl⟩, fun _ hother => hother⟩
    · obtain ⟨hlevel, hoperand, hitems⟩ := ih hmem
      refine ⟨hlevel, hoperand, fun other hother => ?_⟩
      exact List.mem_cons_of_mem _ (List.mem_cons_of_mem _ (hitems other hother))
  | case5 op item rest hop => simp at h

theorem drop_two_mul_succ (op : τ) (rest : List τ) (n : Nat) :
    (op :: rest).drop (2 * (n + 1)) = rest.tail.drop (2 * n) := by
  cases rest with
  | nil => simp [Nat.mul_succ]
  | cons item rest => rfl

theorem upcoming_drop {items : List τ} {front links : List (Link τ β)}
    (h : upcoming level? act items = front ++ links) :
    upcoming level? act (items.drop (2 * front.length)) = links := by
  induction front generalizing items with
  | nil => simpa using h
  | cons link front ih =>
    obtain ⟨rest, rfl, -, -, htail⟩ := exists_of_upcoming_eq_cons h
    rw [List.length_cons, drop_two_mul_succ, ih htail]

theorem length_upcoming_le (items : List τ) :
    2 * (upcoming level? act items).length ≤ items.length + 1 := by
  fun_induction upcoming level? act items with
  | case1 => simp
  | case2 op level h => simp
  | case3 op h => simp
  | case4 op item rest level h ih => simp only [List.length_cons]; omega
  | case5 op item rest h => simp

end

/-! ### The steps of a climb -/

section

variable (grammar : Grammar ε τ) (hooks : Hooks σ ε τ α)

open ClimbM

/-- The step for the operand after an operator: take both, call back, and look at what follows. -/
def operandStep (op : τ) : ClimbM σ ε τ α := do
  let _ ← next
  match ← next with
  | none => throw (grammar.missingOperand op)
  | some item =>
    let operand ← onUser (hooks.primary · item)
    let _ ← peekOperator grammar
    pure operand

/-- The step for the first operand. -/
def firstStep : ClimbM σ ε τ α := do
  match ← next with
  | none => throw grammar.emptyInput
  | some item =>
    let operand ← onUser (hooks.primary · item)
    let _ ← peekOperator grammar
    pure operand

/-- The step that tells the observer. -/
def noteStep (note : Note τ) : ClimbM σ ε τ Unit :=
  onUser fun _ => hooks.observe note

/-- The step for an operator whose sides are complete. -/
def combineStep (op : τ) (prec : Nat) (left right : α) : ClimbM σ ε τ α := do
  noteStep hooks (.reducing op prec)
  onUser (hooks.combine · left op right)

/-- The buffer is to deliver exactly the given items, a look at the next one changes nothing, and its
rule can be read. -/
structure Ready (items : List τ) (buffer : Buffer ε τ) : Prop where
  remaining : buffer.remaining = items.map .item
  settled : buffer.peek.2 = buffer
  readable : ∀ op ∈ items.head?, ∀ e, grammar.level? op ≠ .error e

/-- A climb stands before the given items, in a state that these items relate to one of other
actions. -/
def Before (R : List τ → σ → σ' → Prop) (items : List τ) (s : ClimbState σ ε τ) (t : σ') : Prop :=
  Ready grammar items s.buffer ∧ R items s.user t

/-- Actions on states of their own that go along with the steps of a climb: `act` with the step for
the operand of an operator, and `combine` with that for two values and the operator between them.
The relation `R` of the states may depend on the items that are left, and does not see that an
operator is about to be absorbed. -/
structure Shadow (act : List τ → Act σ' ε' β) (combine : β → τ → β → Act σ' ε' β)
    (V : α → β → Prop) (R : List τ → σ → σ' → Prop)
    (E : ε → ε' → ClimbState σ ε τ → σ' → Prop) : Prop where
  operand : ∀ {op level} rest, grammar.level? op = .ok (some level) →
    Coupled (Before grammar R (op :: rest)) (operandStep grammar hooks op) (act (op :: rest))
      (fun a b s t => V a b ∧ Before grammar R rest.tail s t) E
  combine : ∀ {items op prec a b v w}, V a v → V b w →
    Coupled (Before grammar R items) (combineStep hooks op prec a b) (combine v op w)
      (fun a b s t => V a b ∧ Before grammar R items s t) E
  absorbing : ∀ {items op prec s t}, R items s t →
    R items ((hooks.observe (.absorbing op prec)).run s).2 t

end

section

variable {grammar : Grammar ε τ} {hooks : Hooks σ ε τ α}

open ClimbM

/-- A look at a ready buffer sees the next operator of the chain. -/
theorem Ready.run_peekOperator {items : List τ} {s : ClimbState σ ε τ}
    (act : List τ → β) (h : Ready grammar items s.buffer) :
    (peekOperator grammar : ClimbM σ ε τ _).run.run s =
      (.ok ((upcoming grammar.level? act items).head?.map fun link => (link.op, link.level)),
        s) := by
  rw [ClimbM.run_peekOperator grammar h.remaining, h.settled]
  cases items with
  | nil => rfl
  | cons op rest =>
    simp only [List.head?_cons]
    cases hop : grammar.level? op with
    | error e => exact absurd hop (h.readable op rfl e)
    | ok level =>
      cases level with
      | none => rw [upcoming_eq_nil rest (by simp [hop])]; rfl
      | some level => rw [upcoming_cons rest hop]; rfl

/-- A look at the next item makes a buffer ready, unless its rule cannot be read. -/
theorem ready_peek {items : List τ} {buffer : Buffer ε τ} (h : buffer.remaining = items.map .item)
    (hread : ∀ op ∈ items.head?, ∀ e, grammar.level? op ≠ .error e) :
    Ready grammar items buffer.peek.2 :=
  ⟨remaining_peek_items h, peek_peek_items h, hread⟩

/-- Taking the operand is the step for it, as the inner loop looks ahead anyway. -/
theorem run_operandStep {items : List τ} {s : ClimbState σ ε τ} (op : τ) (fuel prec : Nat)
    (k : α → ClimbM σ ε τ α) (h : s.buffer.remaining = items.map .item) :
    (do
      let _ ← next
      match ← next with
      | none => throw (grammar.missingOperand op)
      | some item =>
        let operand ← onUser (hooks.primary · item)
        let right ← absorb grammar hooks (fuel + 1) prec operand
        k right : ClimbM σ ε τ α).run.run s =
      (do
        let operand ← operandStep grammar hooks op
        let right ← absorb grammar hooks (fuel + 1) prec operand
        k right).run.run s := by
  have h₁ := remaining_next_items h
  have h₂ := remaining_next_items h₁
  rw [operandStep, bind_assoc, run_bind_ok (run_next h), run_bind_ok (run_next h), bind_assoc,
    run_bind_ok (run_next h₁), run_bind_ok (run_next h₁)]
  cases items.tail.head? with
  | none => rfl
  | some item =>
    simp only [bind_assoc, pure_bind]
    rw [run_bind, run_bind, run_onUser]
    cases ((hooks.primary s.buffer.next.2.next.2.asked item).run.run s.user) with
    | mk result user =>
      cases result with
      | error e => rfl
      | ok operand =>
        dsimp only
        rw [absorb_step, bind_assoc]
        exact (run_peekOperator_again grammar h₂ _).symm

/-! ### The rounds of the loops -/

section

variable {act : List τ → β} {items : List τ} {s : ClimbState σ ε τ}

theorem run_climbFrom_stop (fuel : Nat) {floor : Nat} (left : α)
    {links : List (Link τ β)} (h : Ready grammar items s.buffer)
    (hlinks : upcoming grammar.level? act items = links)
    (hstop : ∀ next ∈ links.head?, next.level.prec < floor) :
    (climbFrom grammar hooks (fuel + 1) floor left).run.run s =
      (pure left : ClimbM σ ε τ α).run.run s := by
  rw [climbFrom_step, run_bind_ok (h.run_peekOperator act), hlinks]
  cases hhead : links.head? with
  | none => rfl
  | some next => simp only [Option.map_some, if_pos (hstop next hhead)]

theorem run_climbFrom_step (fuel : Nat) {floor : Nat} (left : α) {link : Link τ β}
    {links : List (Link τ β)} (h : Ready grammar items s.buffer)
    (hlinks : upcoming grammar.level? act items = link :: links)
    (hfloor : floor ≤ link.level.prec) :
    (climbFrom grammar hooks (fuel + 2) floor left).run.run s =
      (do
        let operand ← operandStep grammar hooks link.op
        let right ← absorb grammar hooks (fuel + 1) link.level.prec operand
        let value ← combineStep hooks link.op link.level.prec left right
        climbFrom grammar hooks (fuel + 1) floor value).run.run s := by
  rw [climbFrom_step, run_bind_ok (h.run_peekOperator act), hlinks]
  simp only [List.head?_cons, Option.map_some, if_neg (not_lt.2 hfloor), combineStep, noteStep,
    bind_assoc]
  exact run_operandStep link.op fuel link.level.prec _ h.remaining

theorem run_absorb_stop (fuel : Nat) {prec : Nat} (right : α)
    {links : List (Link τ β)} (h : Ready grammar items s.buffer)
    (hlinks : upcoming grammar.level? act items = links)
    (hstop : ∀ next ∈ links.head?, next.level.captures prec = false) :
    (absorb grammar hooks (fuel + 1) prec right).run.run s =
      (pure right : ClimbM σ ε τ α).run.run s := by
  rw [absorb_step, run_bind_ok (h.run_peekOperator act), hlinks]
  cases hhead : links.head? with
  | none => rfl
  | some next =>
    simp only [Option.map_some, hstop next hhead]
    rfl

theorem run_absorb_step (fuel : Nat) {prec : Nat} (right : α) {link : Link τ β}
    {links : List (Link τ β)} (h : Ready grammar items s.buffer)
    (hlinks : upcoming grammar.level? act items = link :: links)
    (hcaptures : link.level.captures prec = true) :
    (absorb grammar hooks (fuel + 1) prec right).run.run s =
      (do
        noteStep hooks (.absorbing link.op link.level.prec)
        let value ← climbFrom grammar hooks fuel link.level.prec right
        absorb grammar hooks fuel prec value).run.run s := by
  rw [absorb_step, run_bind_ok (h.run_peekOperator act), hlinks]
  simp only [List.head?_cons, Option.map_some, hcaptures, if_true, noteStep]

end

/-! ### The loops and the bracketing -/

variable {act : List τ → Act σ' ε' β} {combine : β → τ → β → Act σ' ε' β}
  {V : α → β → Prop} {R : List τ → σ → σ' → Prop} {E : ε → ε' → ClimbState σ ε τ → σ' → Prop}

theorem Shadow.noteStep_absorbing (shadow : Shadow grammar hooks act combine V R E)
    (op : τ) (prec : Nat) {items : List τ} (s : ClimbState σ ε τ) (t : σ')
    (h : Before grammar R items s t) :
    ∃ a s', (noteStep hooks (.absorbing op prec) : ClimbM σ ε τ Unit).run.run s = (.ok a, s') ∧
      Before grammar R items s' t := by
  rw [noteStep, run_onUser, run_lift]
  exact ⟨_, _, rfl, h.1, shadow.absorbing h.2⟩

/-- The bracketing of a chain whose first operator takes `front`. -/
theorem bracket_inTurn_takes {m : Type → Type} [Monad m] [LawfulMonad m]
    {combine : β → τ → β → m β} (v : β) {link : Link τ (m β)} {front links : List (Link τ (m β))}
    (h : Takes link.level.prec front links) :
    bracket (inTurn combine) (pure v) (link :: (front ++ links)) = (do
      let y ← link.operand
      let b ← bracket (inTurn combine) (pure y) front
      let w ← combine v link.op b
      bracket (inTurn combine) (pure w) links) := by
  rw [← List.cons_append,
    bracket_append _ links fun next hnext => ⟨h.captures next hnext, h.lt next hnext⟩,
    bracket_cons _ h.le h.right, bracket_inTurn, inTurn, pure_bind, bracket_inTurn _ link.operand]
  simp only [bind_assoc]

section

variable (grammar hooks act combine V R E)

/-- The outer loop goes along with the bracketing of the operators that it takes: those from a
precedence on. -/
def OuterCoupled (fuel : Nat) : Prop :=
  ∀ {floor items front links a v}, upcoming grammar.level? act items = front ++ links →
    (∀ link ∈ front, floor ≤ link.level.prec) → (∀ next ∈ links.head?, next.level.prec < floor) →
    2 * front.length < fuel → V a v →
    Coupled (Before grammar R items) (climbFrom grammar hooks fuel floor a)
      (bracket (inTurn combine) (pure v) front)
      (fun a b s t => V a b ∧ Before grammar R (items.drop (2 * front.length)) s t) E

/-- The inner loop goes along with the bracketing of the operators that it takes: those that an
operator takes. -/
def InnerCoupled (fuel : Nat) : Prop :=
  ∀ {prec items front links a v}, upcoming grammar.level? act items = front ++ links →
    Takes prec front links → 2 * front.length + 1 < fuel → V a v →
    Coupled (Before grammar R items) (absorb grammar hooks fuel prec a)
      (bracket (inTurn combine) (pure v) front)
      (fun a b s t => V a b ∧ Before grammar R (items.drop (2 * front.length)) s t) E

end

/-- A round of the outer loop takes an operator and what that takes, and combines the values. -/
theorem outerCoupled_succ (shadow : Shadow grammar hooks act combine V R E) {fuel : Nat}
    (ihFrom : OuterCoupled grammar hooks act combine V R E fuel)
    (ihAbsorb : InnerCoupled grammar hooks act combine V R E fuel) :
    OuterCoupled grammar hooks act combine V R E (fuel + 1) := by
  intro floor items front links a v hitems hfloor hstop hfuel hV
  cases front with
  | nil =>
    rw [bracket_nil]
    exact Coupled.of_run (fun s t hs => run_climbFrom_stop fuel a hs.1 hitems hstop)
      (Coupled.pure fun s t hs => ⟨hV, hs⟩)
  | cons link rest =>
    rw [List.cons_append] at hitems
    obtain ⟨tail, rfl, hlevel, hoperand, htail⟩ := exists_of_upcoming_eq_cons hitems
    obtain ⟨taken, left, rfl, htakes⟩ := exists_takes link.level.prec rest
    simp only [List.length_cons, List.length_append] at hfuel
    obtain ⟨fuel, rfl⟩ : ∃ n, fuel = n + 1 := ⟨fuel - 1, by omega⟩
    have hlink := hfloor link List.mem_cons_self
    rw [bracket_inTurn_takes v htakes, hoperand]
    refine Coupled.of_run (fun s t hs => run_climbFrom_step fuel a hs.1 hitems hlink) ?_
    refine Coupled.bind (shadow.operand tail hlevel) fun operand y =>
      Coupled.of_rel fun hoperand => ?_
    rw [List.append_assoc] at htail
    have htakes := htakes.append fun next hnext => (hstop next hnext).trans_le hlink
    refine Coupled.bind (ihAbsorb htail htakes (by omega) hoperand) fun right b =>
      Coupled.of_rel fun hright => ?_
    refine Coupled.bind (shadow.combine hV hright) fun value w =>
      Coupled.of_rel fun hvalue => ?_
    -- The loop goes on with the operators that the first one has left.
    rw [List.length_cons, drop_two_mul_succ, List.length_append, Nat.mul_add, ← List.drop_drop]
    refine ihFrom (upcoming_drop htail) (fun other hother => hfloor other ?_) hstop (by omega)
      hvalue
    simp [hother]

/-- A round of the inner loop starts a climb that takes all operators from the precedence of the
first one on. -/
theorem innerCoupled_succ (shadow : Shadow grammar hooks act combine V R E) {fuel : Nat}
    (ihFrom : OuterCoupled grammar hooks act combine V R E fuel)
    (ihAbsorb : InnerCoupled grammar hooks act combine V R E fuel) :
    InnerCoupled grammar hooks act combine V R E (fuel + 1) := by
  intro prec items front links a v hitems htakes hfuel hV
  obtain ⟨fuel, rfl⟩ : ∃ n, fuel = n + 1 := ⟨fuel - 1, by omega⟩
  cases front with
  | nil =>
    rw [bracket_nil]
    exact Coupled.of_run (fun s t hs => run_absorb_stop _ a hs.1 hitems htakes.captures)
      (Coupled.pure fun s t hs => ⟨hV, hs⟩)
  | cons link rest =>
    obtain ⟨same, left, rfl, hsame, hleft⟩ :=
      exists_front (fun other => link.level.prec ≤ other.level.prec) rest
    have hlower : ∀ next ∈ left.head?, ∀ other ∈ link :: same,
        next.level.prec < other.level.prec := by
      intro next hnext other hother
      have := hleft next hnext
      rcases List.mem_cons.1 hother with rfl | hin
      · omega
      · have := hsame other hin
        omega
    have hrest := Takes.tail htakes hlower
    rw [← List.cons_append] at hitems htakes ⊢
    -- What stands after the climb of lower precedence is bracketed after it.
    rw [bracket_append _ left fun next hnext =>
      ⟨Level.captures_eq_false (hlower next hnext link List.mem_cons_self),
        fun other hother => hlower next hnext other (List.mem_cons_of_mem _ hother)⟩,
      bracket_inTurn]
    refine Coupled.of_run (fun s t hs => run_absorb_step _ a hs.1 hitems htakes.captures_head) ?_
    refine Coupled.bind_left (shadow.noteStep_absorbing link.op link.level.prec) fun _ => ?_
    rw [List.append_assoc] at hitems
    simp only [List.length_cons, List.length_append] at hfuel
    refine Coupled.bind (ihFrom hitems (fun other hother => ?_) (fun next hnext => ?_)
      (by simp only [List.length_cons]; omega) hV) fun value w => Coupled.of_rel fun hvalue => ?_
    · rcases List.mem_cons.1 hother with rfl | hin
      · exact le_rfl
      · exact hsame other hin
    · rw [List.head?_append] at hnext
      cases hhead : left.head? with
      | none =>
        rw [hhead, Option.none_or] at hnext
        exact htakes.lt next hnext link (by simp)
      | some head =>
        rw [hhead, Option.some_or] at hnext
        exact hlower next (hhead.trans hnext) link List.mem_cons_self
    · rw [List.length_append, Nat.mul_add, ← List.drop_drop]
      exact ihAbsorb (upcoming_drop hitems) hrest (by omega) hvalue

/-- Both loops go along with the bracketing of the operators that they take. -/
theorem loops_coupled (shadow : Shadow grammar hooks act combine V R E) (fuel : Nat) :
    OuterCoupled grammar hooks act combine V R E fuel ∧
      InnerCoupled grammar hooks act combine V R E fuel := by
  induction fuel with
  | zero =>
    constructor
    · intro _ _ _ _ _ _ _ _ _ hfuel
      omega
    · intro _ _ _ _ _ _ _ _ hfuel
      omega
  | succ fuel ih => exact ⟨outerCoupled_succ shadow ih.1 ih.2, innerCoupled_succ shadow ih.1 ih.2⟩

theorem run_climb {items : List τ} {s : ClimbState σ ε τ}
    (h : s.buffer.remaining = items.map .item) :
    (climb grammar hooks).run.run s =
      (do
        let left ← firstStep grammar hooks
        climbFrom grammar hooks (items.tail.length + 2) 0 left).run.run s := by
  have hnext := remaining_next_items h
  rw [climb_step, firstStep, bind_assoc, run_bind_ok (run_next h), run_bind_ok (run_next h)]
  cases items.head? with
  | none => rfl
  | some item =>
    simp only [bind_assoc, pure_bind]
    rw [run_bind, run_bind, run_onUser]
    cases (hooks.primary s.buffer.next.2.asked item).run.run s.user with
    | mk result user =>
      cases result with
      | error e => rfl
      | ok left =>
        dsimp only
        rw [run_bind_ok (run_get _), Buffer.size, hnext, List.length_map, climbFrom_step]
        exact (run_peekOperator_again grammar hnext _).symm

/-- A climb goes along with the bracketing of its chain, and stops before the first item that is out
of place as an operator. -/
theorem climb_coupled (shadow : Shadow grammar hooks act combine V R E)
    {P : ClimbState σ ε τ → σ' → Prop} {items : List τ} {first : Act σ' ε' β}
    (hP : ∀ s t, P s t → s.buffer.remaining = items.map .item)
    (hfirst : Coupled P (firstStep grammar hooks) first
      (fun a b s t => V a b ∧ Before grammar R items.tail s t) E) :
    Coupled P (climb grammar hooks)
      (bracket (inTurn combine) first (upcoming grammar.level? act items.tail))
      (fun a b s t => V a b ∧ Before grammar R
        (items.tail.drop (2 * (upcoming grammar.level? act items.tail).length)) s t) E := by
  rw [bracket_inTurn]
  refine Coupled.of_run (fun s t hs => run_climb (hP s t hs)) ?_
  refine Coupled.bind hfirst fun a b => Coupled.of_rel fun hV => ?_
  refine (loops_coupled shadow _).1 (List.append_nil _).symm (by simp) (by simp) ?_ hV
  have := @length_upcoming_le _ _ _ grammar.level? act items.tail
  omega

end

end Precedence
