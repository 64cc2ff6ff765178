import Mathlib
import Precedence.Proofs.Climbing
import Precedence.Proofs.Likeness

/-!
# The outline of a climb

What a climb does can be told without its buffer and its loops. The outline of a climb over a list of
items reduces the operands from left to right, looks at the item after each of them, and combines the
values as the bracketing says.

## Main definitions

- `operandOf`, `operandAfter` — the action for an operand, and for an operator and its operand
- `outline` — the bracketing of these actions
- `Hooks.Follow` — callbacks that go along with actions on another state
- `linkItems` — a chain as a list of items, operators and operands alternating

## Main statements

- `climb_outline` — a climb goes along with its outline, and leaves the items after its chain
- `outline_linkItems_append` — the outline of a climb over a chain and some more items

## Design notes

A look at an item fails if the rule of the item cannot be read, even if nothing is taken afterwards.
-/

namespace Precedence

variable {σ σ' ε τ α β : Type}

/-! ### The outline -/

section

variable (grammar : Grammar ε τ)

/-- A look at the next item. -/
def glance : List τ → Act σ ε Unit
  | [] => pure ()
  | op :: _ =>
    match grammar.level? op with
    | .ok _ => pure ()
    | .error e => throw e

/-- Reduce the first item, which is an operand, and look at the next one. -/
def operandOf (primary : τ → Act σ ε α) : List τ → Act σ ε α
  | [] => throw grammar.emptyInput
  | item :: rest => do
    let a ← primary item
    glance grammar rest
    pure a

/-- Reduce the operand after an operator, and look at the item after it. -/
def operandAfter (primary : τ → Act σ ε α) : List τ → Act σ ε α
  | [] => throw grammar.emptyInput
  | [op] => throw (grammar.missingOperand op)
  | _ :: item :: rest => operandOf grammar primary (item :: rest)

/-- The links of the chain that a list of items begins with, after its first operand. -/
def chain (primary : τ → Act σ ε α) (items : List τ) : List (Link τ (Act σ ε α)) :=
  upcoming grammar.level? (operandAfter grammar primary) items.tail

/-- Reduce a list of items up to the first that is out of place as an operator. -/
def outline (primary : τ → Act σ ε α) (combine : α → τ → α → Act σ ε α) (items : List τ) :
    Act σ ε α :=
  bracket (inTurn combine) (operandOf grammar primary items) (chain grammar primary items)

theorem outline_nil (primary : τ → Act σ ε α) (combine : α → τ → α → Act σ ε α) :
    outline grammar primary combine [] = throw grammar.emptyInput :=
  bracket_nil _ _

/-- The items that a climb leaves: it takes the first, and two for each link of the chain. -/
def leftover (primary : τ → Act σ ε α) (items : List τ) : List τ :=
  items.tail.drop (2 * (chain grammar primary items).length)

theorem mem_of_mem_leftover {primary : τ → Act σ ε α} {items : List τ} {item : τ}
    (h : item ∈ leftover grammar primary items) : item ∈ items :=
  List.mem_of_mem_tail (List.mem_of_mem_drop h)

end

/-! ### Callbacks and actions -/

/-- Callbacks that go along with actions on a state of their own: values are related by `V`, and
states by `R`; the observer does not change what `R` sees. -/
structure Hooks.Follow (hooks : Hooks σ ε τ α) (primary : τ → Act σ' ε β)
    (combine : β → τ → β → Act σ' ε β) (V : α → β → Prop) (R : σ → σ' → Prop) : Prop where
  primary : ∀ n item, Act.Like V R (hooks.primary n item) (primary item)
  combine : ∀ n op {a b v w}, V a v → V b w →
    Act.Like V R (hooks.combine n a op b) (combine v op w)
  observe : ∀ note {s t}, R s t → R ((hooks.observe note).run s).2 t

/-- Actions that lead from states related by `R` to states related by `R'`, with values related by
`V` or with the same complaint. -/
def Act.Moves (R : σ → σ' → Prop) (V : α → β → Prop) (R' : σ → σ' → Prop) (m : Act σ ε α)
    (m' : Act σ' ε β) : Prop :=
  Coupled R m m' (fun a b s t => V a b ∧ R' s t) fun e f s t => e = f ∧ R' s t

/-- Callbacks that go along with actions while a climb takes one operator after another: the relation
of the states depends on the items that are left, beginning with the next operator. -/
structure Hooks.Escort (grammar : Grammar ε τ) (hooks : Hooks σ ε τ α) (primary : τ → Act σ' ε β)
    (combine : β → τ → β → Act σ' ε β) (V : α → β → Prop) (R : List τ → σ → σ' → Prop) : Prop where
  primary : ∀ n {op level} item rest, grammar.level? op = .ok (some level) →
    Act.Moves (R (op :: item :: rest)) V (R rest) (hooks.primary n item) (primary item)
  combine : ∀ n op items {a b v w}, V a v → V b w →
    Act.Moves (R items) V (R items) (hooks.combine n a op b) (combine v op w)
  observe : ∀ note items {s t}, R items s t → R items ((hooks.observe note).run s).2 t

section

variable {grammar : Grammar ε τ} {hooks : Hooks σ ε τ α} {primary : τ → Act σ' ε β}
  {combine : β → τ → β → Act σ' ε β} {V : α → β → Prop} {R₀ R₁ : σ → σ' → Prop}
  {R : List τ → σ → σ' → Prop}

theorem Hooks.Follow.escort (hfollow : hooks.Follow primary combine V R₀) :
    Hooks.Escort grammar hooks primary combine V fun _ => R₀ where
  primary n _ _ item _ _ := hfollow.primary n item
  combine n op _ _ _ _ _ ha hb := hfollow.combine n op ha hb
  observe note _ _ _ hs := hfollow.observe note hs

open ClimbM

/-- A climb in any state is still to be told the given items. -/
def Facing (R : σ → σ' → Prop) (items : List τ) (s : ClimbState σ ε τ) (t : σ') : Prop :=
  s.buffer.remaining = items.map .item ∧ R s.user t

/-- The complaints are the same. -/
def Same (R : σ → σ' → Prop) (e f : ε) (s : ClimbState σ ε τ) (t : σ') : Prop :=
  e = f ∧ R s.user t

/-- The complaints are the same, and the items that relate the states are left, unless they are an
operator that lacks its operand. -/
def Stopped (grammar : Grammar ε τ) (R : List τ → σ → σ' → Prop) (e f : ε) (s : ClimbState σ ε τ)
    (t : σ') : Prop :=
  e = f ∧ ∃ items, R items s.user t ∧ (s.buffer.remaining = items.map .item ∨
    ∃ op level, items = [op] ∧ grammar.level? op = .ok (some level))

/-- An action of the callbacks leaves the buffer as it is. -/
theorem onUser_coupled {act : Nat → Act σ ε α} {m : Act σ' ε β} {P : Buffer ε τ → Prop}
    (h : ∀ n, Act.Moves R₀ V R₁ (act n) m) :
    Coupled (fun (s : ClimbState σ ε τ) t => P s.buffer ∧ R₀ s.user t) (onUser act) m
      (fun a b s t => V a b ∧ P s.buffer ∧ R₁ s.user t)
      (fun e f s t => e = f ∧ P s.buffer ∧ R₁ s.user t) := by
  rintro s t ⟨hbuffer, huser⟩
  have hact := h s.buffer.asked s.user t huser
  rw [run_onUser]
  revert hact
  generalize (act s.buffer.asked).run.run s.user = end₁
  generalize m.run.run t = end₂
  intro hact
  cases hact with
  | ok hv => exact .ok ⟨hv.1, hbuffer, hv.2⟩
  | error he => exact .error ⟨he.1, hbuffer, he.2⟩

theorem peekOperator_coupled (items : List τ) :
    Coupled (Facing (R items) items) (peekOperator grammar) (glance grammar items)
      (fun _ _ s t => Before grammar R items s t) (Stopped grammar R) := by
  rintro s t ⟨hitems, huser⟩
  rw [run_peekOperator grammar hitems]
  cases items with
  | nil => exact .ok ⟨ready_peek hitems (by simp), huser⟩
  | cons op rest =>
    simp only [List.head?_cons, glance]
    cases hop : grammar.level? op with
    | error e => exact .error ⟨rfl, _, huser, Or.inl (remaining_peek_items hitems)⟩
    | ok level =>
      refine .ok ⟨ready_peek hitems fun other hother e => ?_, huser⟩
      obtain rfl : op = other := by simpa using hother
      rw [hop]
      exact nofun

theorem operand_coupled {item : τ} {rest : List τ}
    (h : ∀ n, Act.Moves R₀ V (R rest) (hooks.primary n item) (primary item)) :
    Coupled (Facing R₀ rest)
      (do
        let operand ← onUser (hooks.primary · item)
        let _ ← peekOperator grammar
        pure operand)
      (operandOf grammar primary (item :: rest))
      (fun a b s t => V a b ∧ Before grammar R rest s t) (Stopped grammar R) := by
  have hprimary := onUser_coupled (P := fun buffer => buffer.remaining = rest.map .item) h
  refine Coupled.bind (hprimary.mono (fun _ _ hs => hs) (fun _ _ _ _ hs => hs)
    fun e f s t hs => ⟨hs.1, rest, hs.2.2, Or.inl hs.2.1⟩) fun a b => Coupled.of_rel fun hV => ?_
  refine Coupled.bind (peekOperator_coupled rest) fun _ _ => ?_
  exact Coupled.pure fun s t hs => ⟨hV, hs⟩

theorem next_bind_coupled {γ δ : Type} {items : List τ} {k : Option τ → ClimbM σ ε τ γ}
    {m : Act σ' ε δ} {Q : γ → δ → ClimbState σ ε τ → σ' → Prop}
    {E : ε → ε → ClimbState σ ε τ → σ' → Prop}
    (h : Coupled (Facing R₀ items.tail) (k items.head?) m Q E) :
    Coupled (Facing R₀ items) (next >>= k) m Q E := by
  refine Coupled.bind_left (M := fun seen s t => seen = items.head? ∧ Facing R₀ items.tail s t)
    (fun s t hs => ?_) fun seen => Coupled.of_rel ?_
  · exact ⟨_, _, run_next hs.1, rfl, remaining_next_items hs.1, hs.2⟩
  · rintro rfl
    exact h

theorem operandStep_coupled (hescort : Hooks.Escort grammar hooks primary combine V R) {op : τ}
    {level : Level} (rest : List τ) (hop : grammar.level? op = .ok (some level)) :
    Coupled (Facing (R (op :: rest)) (op :: rest)) (operandStep grammar hooks op)
      (operandAfter grammar primary (op :: rest))
      (fun a b s t => V a b ∧ Before grammar R rest.tail s t) (Stopped grammar R) := by
  refine next_bind_coupled (next_bind_coupled ?_)
  cases rest with
  | nil => exact Coupled.throw fun s t hs => ⟨rfl, [op], hs.2, Or.inr ⟨op, level, rfl, hop⟩⟩
  | cons item rest => exact operand_coupled fun n => hescort.primary n item rest hop

theorem combineStep_coupled (hescort : Hooks.Escort grammar hooks primary combine V R)
    {items : List τ} (op : τ) (prec : Nat) {a b : α} {v w : β} (ha : V a v) (hb : V b w) :
    Coupled (Before grammar R items) (combineStep hooks op prec a b) (combine v op w)
      (fun a b s t => V a b ∧ Before grammar R items s t) (Stopped grammar R) := by
  have hcombine := onUser_coupled (P := Ready grammar items) fun n =>
    hescort.combine n op items ha hb
  refine Coupled.bind_left (fun s t hs => ?_) fun _ => hcombine.mono (fun _ _ hs => hs)
    (fun _ _ _ _ hs => hs) fun e f s t hs => ⟨hs.1, items, hs.2.2, Or.inl hs.2.1.remaining⟩
  rw [noteStep, run_onUser, run_lift]
  exact ⟨_, _, rfl, hs.1, hescort.observe _ _ hs.2⟩

/-- Actions that the callbacks go along with shadow the steps of a climb. -/
theorem Hooks.Escort.shadow (hescort : Hooks.Escort grammar hooks primary combine V R) :
    Shadow grammar hooks (operandAfter grammar primary) combine V R (Stopped grammar R) where
  operand rest hop := (operandStep_coupled hescort rest hop).mono
    (fun _ _ hs => ⟨hs.1.remaining, hs.2⟩) (fun _ _ _ _ h => h) fun _ _ _ _ h => h
  combine ha hb := combineStep_coupled hescort _ _ ha hb
  absorbing hR := hescort.observe _ _ hR

/-- A climb over items goes along with its outline, and leaves the items after its chain; if it
fails, the items that relate the states are left. -/
theorem climb_escorted (hescort : Hooks.Escort grammar hooks primary combine V R) {first : τ}
    {rest : List τ}
    (hfirst : ∀ n, Act.Moves R₀ V (R rest) (hooks.primary n first) (primary first)) :
    Coupled (Facing R₀ (first :: rest)) (climb grammar hooks)
      (outline grammar primary combine (first :: rest))
      (fun a b s t => V a b ∧ Before grammar R (leftover grammar primary (first :: rest)) s t)
      (Stopped grammar R) :=
  climb_coupled hescort.shadow (fun _ _ hs => hs.1)
    (next_bind_coupled (operand_coupled hfirst))

/-- A climb goes along with its outline, and leaves the items after its chain. -/
theorem climb_outline (grammar : Grammar ε τ) (hfollow : hooks.Follow primary combine V R₀)
    (items : List τ) :
    Coupled (Facing R₀ items) (climb grammar hooks) (outline grammar primary combine items)
      (fun a b s t => V a b ∧
        Before grammar (fun _ => R₀) (leftover grammar primary items) s t) (Same R₀) := by
  cases items with
  | nil =>
    rw [outline_nil]
    exact next_bind_coupled (Coupled.throw fun s t hs => ⟨rfl, hs.2⟩)
  | cons first rest =>
    refine (climb_escorted hfollow.escort (hfollow.primary · first)).mono (fun _ _ hs => hs)
      (fun _ _ _ _ h => h) ?_
    rintro e f s t ⟨he, items, hR, -⟩
    exact ⟨he, hR⟩

theorem run_runClimb (grammar : Grammar ε τ) (hooks : Hooks σ ε τ α) (buffer : Buffer ε τ)
    (s : σ) :
    (runClimb grammar hooks buffer).run s =
      ((((climb grammar hooks).run.run ⟨buffer, s⟩).1,
          ((climb grammar hooks).run.run ⟨buffer, s⟩).2.buffer),
        ((climb grammar hooks).run.run ⟨buffer, s⟩).2.user) := rfl

end

/-! ### Outlines of chains -/

/-- The items of a chain after its first operand. -/
def linkItems (links : List (Link τ τ)) : List τ :=
  links.flatMap fun link => [link.op, link.operand]

@[simp] theorem linkItems_nil : linkItems ([] : List (Link τ τ)) = [] := rfl

@[simp] theorem linkItems_cons (link : Link τ τ) (links : List (Link τ τ)) :
    linkItems (link :: links) = link.op :: link.operand :: linkItems links := rfl

@[simp] theorem linkItems_append (front links : List (Link τ τ)) :
    linkItems (front ++ links) = linkItems front ++ linkItems links :=
  List.flatMap_append

section

variable {grammar : Grammar ε τ}

/-- The rule of the first item can be read. -/
def Grammar.ReadableHead (grammar : Grammar ε τ) (items : List τ) : Prop :=
  ∀ op ∈ items.head?, ∀ e, grammar.level? op ≠ .error e

theorem glance_of_readableHead {items : List τ} (h : grammar.ReadableHead items) :
    (glance grammar items : Act σ ε Unit) = pure () := by
  cases items with
  | nil => rfl
  | cons op rest =>
    rw [glance]
    cases hop : grammar.level? op with
    | ok level => rfl
    | error e => exact absurd hop (h op rfl e)

/-- An operand before an item whose rule can be read is reduced, and nothing else. -/
theorem operandOf_of_readableHead (primary : τ → Act σ ε α) (item : τ) {rest : List τ}
    (h : grammar.ReadableHead rest) : operandOf grammar primary (item :: rest) = primary item := by
  rw [operandOf, glance_of_readableHead h]
  simp only [pure_bind, bind_pure]

theorem readableHead_linkItems_append {links : List (Link τ τ)} {left : List τ}
    (h : ∀ link ∈ links, grammar.level? link.op = .ok (some link.level))
    (hleft : grammar.ReadableHead left) : grammar.ReadableHead (linkItems links ++ left) := by
  cases links with
  | nil => exact hleft
  | cons link links =>
    intro op hop e
    obtain rfl : link.op = op := by simpa using hop
    rw [h link List.mem_cons_self]
    exact nofun

theorem chain_linkItems_append (primary : τ → Act σ ε α) (first : τ) {links : List (Link τ τ)}
    {left : List τ} (h : ∀ link ∈ links, grammar.level? link.op = .ok (some link.level))
    (hleft : grammar.ReadableHead left) :
    chain grammar primary (first :: (linkItems links ++ left)) =
      links.map (Link.map id primary) ++
        upcoming grammar.level? (operandAfter grammar primary) left := by
  induction links generalizing first with
  | nil => rfl
  | cons link links ih =>
    have hlinks := fun other hother => h other (List.mem_cons_of_mem link hother)
    have hread := readableHead_linkItems_append hlinks hleft
    rw [chain, List.tail_cons, linkItems_cons, List.cons_append,
      upcoming_cons _ (h link List.mem_cons_self), List.cons_append, operandAfter,
      operandOf_of_readableHead primary _ hread, List.map_cons, List.cons_append,
      ← ih link.operand hlinks]
    rfl

/-- The outline of a climb over the items of a chain and some more items. -/
theorem outline_linkItems_append (primary : τ → Act σ ε α) (combine : α → τ → α → Act σ ε α)
    (first : τ) {links : List (Link τ τ)} {left : List τ}
    (h : ∀ link ∈ links, grammar.level? link.op = .ok (some link.level))
    (hleft : grammar.ReadableHead left) :
    outline grammar primary combine (first :: (linkItems links ++ left)) =
      bracket (inTurn combine) (primary first)
        (links.map (Link.map id primary) ++
          upcoming grammar.level? (operandAfter grammar primary) left) := by
  rw [outline, chain_linkItems_append primary first h hleft,
    operandOf_of_readableHead primary first (readableHead_linkItems_append h hleft)]

end

/-! ### Where a chain ends -/

theorem operand_mem_linkItems {links : List (Link τ τ)} {link : Link τ τ} (h : link ∈ links) :
    link.operand ∈ linkItems links :=
  List.mem_flatMap.2 ⟨link, h, by simp⟩

theorem length_linkItems (links : List (Link τ τ)) :
    (linkItems links).length = 2 * links.length := by
  induction links with
  | nil => rfl
  | cons link links ih =>
    simp only [linkItems_cons, List.length_cons, ih]
    omega

/-- A list of items is a chain, followed by nothing or by an item that is no operator, or by one
operator at the end. -/
theorem exists_chain (level? : τ → Except ε (Option Level)) {items : List τ} (hne : items ≠ []) :
    ∃ first links left, items = first :: (linkItems links ++ left) ∧
      (∀ link ∈ links, level? link.op = .ok (some link.level)) ∧
      ((∀ op ∈ left.head?, ∀ level, level? op ≠ .ok (some level)) ∨
        ∃ op level, left = [op] ∧ level? op = .ok (some level)) := by
  induction items using List.twoStepInduction with
  | nil => exact absurd rfl hne
  | singleton first => exact ⟨first, [], [], rfl, by simp, Or.inl (by simp)⟩
  | cons_cons first op rest ih _ =>
    by_cases hop : ∃ level, level? op = .ok (some level)
    · obtain ⟨level, hlevel⟩ := hop
      cases rest with
      | nil => exact ⟨first, [], [op], rfl, by simp, Or.inr ⟨op, level, rfl, hlevel⟩⟩
      | cons item rest =>
        obtain ⟨second, links, left, heq, hlinks, hleft⟩ := ih (by simp)
        refine ⟨first, ⟨op, level, second⟩ :: links, left, by rw [heq]; rfl, ?_, hleft⟩
        exact List.forall_mem_cons.2 ⟨hlevel, hlinks⟩
    · refine ⟨first, [], op :: rest, rfl, by simp, Or.inl fun next hnext level hlevel => hop ?_⟩
      obtain rfl : op = next := by simpa using hnext
      exact ⟨level, hlevel⟩

theorem upcoming_of_head {level? : τ → Except ε (Option Level)} {act : List τ → β} {items : List τ}
    (h : ∀ op ∈ items.head?, ∀ level, level? op ≠ .ok (some level)) :
    upcoming level? act items = [] := by
  cases items with
  | nil => rfl
  | cons op rest => exact upcoming_eq_nil rest (h op rfl)

/-- A climb over a chain leaves what follows the chain. -/
theorem leftover_linkItems_append {grammar : Grammar ε τ} (primary : τ → Act σ ε α) (first : τ)
    {links : List (Link τ τ)} {left : List τ}
    (h : ∀ link ∈ links, grammar.level? link.op = .ok (some link.level))
    (hread : grammar.ReadableHead left)
    (hleft : ∀ op ∈ left.head?, ∀ level, grammar.level? op ≠ .ok (some level)) :
    leftover grammar primary (first :: (linkItems links ++ left)) = left := by
  rw [leftover, chain_linkItems_append primary first h hread, upcoming_of_head hleft,
    List.append_nil, List.length_map, List.tail_cons, ← length_linkItems, List.drop_left]

/-- An item that is no operator can be read. -/
theorem readableHead_of_none {grammar : Grammar ε τ} {left : List τ}
    (h : ∀ next ∈ left.head?, grammar.level? next = .ok none) :
    grammar.ReadableHead left ∧
      ∀ next ∈ left.head?, ∀ level, grammar.level? next ≠ .ok (some level) := by
  refine ⟨fun next hnext e => ?_, fun next hnext level => ?_⟩
  · rw [h next hnext]
    exact nofun
  · rw [h next hnext]
    exact nofun

/-- The outline of a climb over the items of a chain, followed by an item that is no operator. -/
theorem outline_linkItems_stop {grammar : Grammar ε τ} (primary : τ → Act σ ε α)
    (combine : α → τ → α → Act σ ε α) (first : τ) {links : List (Link τ τ)} {left : List τ}
    (h : ∀ link ∈ links, grammar.level? link.op = .ok (some link.level))
    (hleft : ∀ next ∈ left.head?, grammar.level? next = .ok none) :
    outline grammar primary combine (first :: (linkItems links ++ left)) =
      bracket (inTurn combine) (primary first) (links.map (Link.map id primary)) := by
  obtain ⟨hread, hstop⟩ := readableHead_of_none hleft
  rw [outline_linkItems_append primary combine first h hread, upcoming_of_head hstop,
    List.append_nil]

/-! ### Relations between outlines -/

/-- A relation that holds of the actions for the operands of two outlines, and of the combinations of
two actions if it holds of them, holds of the outlines. -/
theorem outline_rel {σ₁ σ₂ α₁ α₂ : Type} {grammar : Grammar ε τ} {primary₁ : τ → Act σ₁ ε α₁}
    {primary₂ : τ → Act σ₂ ε α₂} {combine₁ : α₁ → τ → α₁ → Act σ₁ ε α₁}
    {combine₂ : α₂ → τ → α₂ → Act σ₂ ε α₂} (C : Act σ₁ ε α₁ → Act σ₂ ε α₂ → Prop)
    {items : List τ}
    (hthrow : ∀ e, e = grammar.emptyInput ∨ (∃ op ∈ items, e = grammar.missingOperand op) →
      C (throw e) (throw e))
    (hoperand : ∀ item ∈ items, ∀ rest,
      C (operandOf grammar primary₁ (item :: rest)) (operandOf grammar primary₂ (item :: rest)))
    (hnode : ∀ op ∈ items, ∀ level, grammar.level? op = .ok (some level) →
      ∀ {left₁ left₂ right₁ right₂}, C left₁ left₂ → C right₁ right₂ →
        C (inTurn combine₁ left₁ ⟨op, level, right₁⟩ right₁)
          (inTurn combine₂ left₂ ⟨op, level, right₂⟩ right₂)) :
    C (outline grammar primary₁ combine₁ items) (outline grammar primary₂ combine₂ items) := by
  have hempty := hthrow _ (Or.inl rfl)
  rw [outline, outline, chain, chain, upcoming_id,
    @upcoming_id _ _ _ _ (operandAfter grammar primary₂)]
  have hops : ∀ link ∈ upcoming grammar.level? id items.tail, link.op ∈ items := by
    intro link hlink
    obtain ⟨-, ⟨rest, hrest⟩, hmem⟩ := mem_upcoming_id hlink
    have hop : link.op ∈ link.operand := by
      rw [hrest]
      exact List.mem_cons_self
    exact List.mem_of_mem_tail (hmem _ hop)
  refine bracket_rel C _ _ (fun link hlink => ?_) ?_ fun link hlink => ?_
  · intro left₁ left₂ right₁ right₂ hleft hright
    exact hnode link.op (hops link hlink) link.level (mem_upcoming_id hlink).1 hleft hright
  · cases items with
    | nil => exact hempty
    | cons item rest => exact hoperand item List.mem_cons_self rest
  · obtain ⟨-, ⟨rest, hrest⟩, hmem⟩ := mem_upcoming_id hlink
    rw [hrest] at hmem ⊢
    cases rest with
    | nil => exact hthrow _ (Or.inr ⟨link.op, hops link hlink, rfl⟩)
    | cons item rest =>
      refine hoperand item (List.mem_of_mem_tail (hmem item ?_)) rest
      exact List.mem_cons_of_mem _ List.mem_cons_self

/-- What a climb leaves does not depend on how operands are reduced. -/
theorem leftover_eq {σ₁ σ₂ α₁ α₂ : Type} (grammar : Grammar ε τ) (primary₁ : τ → Act σ₁ ε α₁)
    (primary₂ : τ → Act σ₂ ε α₂) (items : List τ) :
    leftover grammar primary₁ items = leftover grammar primary₂ items := by
  rw [leftover, leftover, chain, chain, upcoming_id,
    @upcoming_id _ _ _ _ (operandAfter grammar primary₂), List.length_map, List.length_map]

/-! ### Outlines over mapped items -/

section

variable {υ : Type} (g : υ → τ) {grammar : Grammar ε τ}

/-- The grammar of items that stand for others. -/
def Grammar.comap (grammar : Grammar ε τ) : Grammar ε υ :=
  ⟨grammar.level? ∘ g, grammar.emptyInput, grammar.missingOperand ∘ g⟩

theorem glance_map (items : List υ) :
    (glance grammar (items.map g) : Act σ ε Unit) = glance (grammar.comap g) items := by
  cases items <;> rfl

theorem operandOf_map (primary : τ → Act σ ε α) (items : List υ) :
    operandOf grammar primary (items.map g) = operandOf (grammar.comap g) (primary ∘ g) items := by
  cases items with
  | nil => rfl
  | cons item rest =>
    rw [List.map_cons, operandOf, glance_map, operandOf]
    rfl

theorem operandAfter_map (primary : τ → Act σ ε α) :
    operandAfter grammar primary ∘ List.map g = operandAfter (grammar.comap g) (primary ∘ g) := by
  funext items
  match items with
  | [] => rfl
  | [op] => rfl
  | _ :: item :: rest => exact operandOf_map g primary (item :: rest)

theorem chain_map (primary : τ → Act σ ε α) (items : List υ) :
    chain grammar primary (items.map g) =
      (chain (grammar.comap g) (primary ∘ g) items).map (Link.map g id) := by
  rw [chain, ← List.map_tail, upcoming_map, operandAfter_map]
  rfl

theorem outline_map (primary : τ → Act σ ε α) (combine : α → τ → α → Act σ ε α) (items : List υ) :
    outline grammar primary combine (items.map g) =
      outline (grammar.comap g) (primary ∘ g) (fun left op right => combine left (g op) right)
        items := by
  rw [outline, outline, operandOf_map, chain_map]
  exact (map_bracket _ g id (fun left link right => rfl) _ _).symm

theorem leftover_map (primary : τ → Act σ ε α) (items : List υ) :
    leftover grammar primary (items.map g) =
      (leftover (grammar.comap g) (primary ∘ g) items).map g := by
  rw [leftover, leftover, chain_map, List.length_map, ← List.map_tail, List.map_drop]

end

end Precedence
