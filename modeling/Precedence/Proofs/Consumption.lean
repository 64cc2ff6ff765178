import Mathlib
import Precedence.Proofs.Reference

/-!
# What a climb consumes

A climb takes its first item, and then an operator with an operand as often as it can. Where it stops
depends on nothing but which of the items at odd positions are operators.

## Main definitions

- `Grammar.IsOperator` — the items that have a level
- `Stops` — the places where a climb may stop
- `Hooks.Total`, `Hooks.Uncounted` — callbacks that always succeed, and callbacks that are not told
  how many items have been delivered
- `taking` — the outline of a climb whose values do not matter

## Main statements

- `taking_of_isLeast` — how taking ends, by the first place where it may stop
- `runClimb_congr` — buffers that are still to deliver the same items are climbed alike
- `runClimb_consumption` — what a climb consumes, and how it ends
-/

namespace Precedence

variable {σ ε τ ρ α β : Type}

/-- An item is an operator if it has a level. -/
def Grammar.IsOperator (grammar : Grammar ε τ) (item : τ) : Prop :=
  ∃ level, grammar.level? item = .ok (some level)

/-- The rules of the items at odd positions can be read. -/
def Grammar.Readable (grammar : Grammar ε τ) (items : List τ) : Prop :=
  ∀ i, ∀ op ∈ items[2 * i + 1]?, ∀ e, grammar.level? op ≠ .error e

/-- A climb may stop after `k` operators: the next item is missing or is no operator, or the item
after it is missing. -/
def Stops (operator : τ → Prop) (items : List τ) (k : Nat) : Prop :=
  (∀ op ∈ items[2 * k + 1]?, ¬ operator op) ∨ items[2 * k + 2]? = none

/-! ### Taking items -/

/-- Where values do not matter, the operands are taken one after another. -/
theorem bracket_inTurn_unit {m : Type → Type} [Monad m] [LawfulMonad m] (first : m Unit)
    (links : List (Link τ (m Unit))) :
    bracket (inTurn fun _ _ _ => pure ()) first links =
      first >>= fun _ => forM links (·.operand) := by
  induction links using split_induction generalizing first with
  | nil => simp
  | @split links before link after hsplit hlinks ihBefore ihAfter =>
    rw [bracket_of_split _ hsplit, inTurn, ihBefore, ihAfter, hlinks, List.forM_append,
      List.forM_cons]
    simp only [bind_assoc, bind_pure_unit]

section

variable (grammar : Grammar ε τ)

/-- Take the items that a climb takes, whatever their values. -/
def taking (items : List τ) : Act Unit ε Unit :=
  outline grammar (fun _ => pure ()) (fun _ _ _ => pure ()) items

/-- The number of operators that a climb takes. -/
def taken (items : List τ) : Nat :=
  (chain grammar (fun _ => (pure () : Act Unit ε Unit)) items).length

variable {grammar} {first op item : τ} {rest : List τ}

/-- The first item is taken, and nothing else, if the next one is missing or is no operator. -/
theorem taking_stop (h : grammar.ReadableHead rest)
    (hstop : ∀ next ∈ rest.head?, ¬ grammar.IsOperator next) :
    taking grammar (first :: rest) = pure () ∧ taken grammar (first :: rest) = 0 := by
  have hchain : chain grammar (fun _ => (pure () : Act Unit ε Unit)) (first :: rest) = [] := by
    cases rest with
    | nil => rfl
    | cons next rest =>
      exact upcoming_eq_nil rest fun level hlevel => hstop next rfl ⟨level, hlevel⟩
  refine ⟨?_, by rw [taken, hchain, List.length_nil]⟩
  rw [taking, outline, hchain, bracket_nil, operandOf_of_readableHead _ _ h]

theorem taking_missing (hop : grammar.IsOperator op) :
    taking grammar [first, op] = throw (grammar.missingOperand op) := by
  obtain ⟨level, hlevel⟩ := hop
  rw [taking, outline, chain, List.tail_cons, upcoming_cons _ hlevel, bracket_inTurn_unit,
    operandOf_of_readableHead _ _ (by simp [Grammar.ReadableHead, hlevel])]
  rfl

/-- An operator and its operand are taken together, and then taking goes on from the operand. -/
theorem taking_step (hop : grammar.IsOperator op) :
    taking grammar (first :: op :: item :: rest) = taking grammar (item :: rest) ∧
      taken grammar (first :: op :: item :: rest) = taken grammar (item :: rest) + 1 := by
  obtain ⟨level, hlevel⟩ := hop
  refine ⟨?_, ?_⟩
  · rw [taking, taking, outline, outline, chain, chain, List.tail_cons, upcoming_cons _ hlevel,
      bracket_inTurn_unit, bracket_inTurn_unit,
      operandOf_of_readableHead _ _ (by simp [Grammar.ReadableHead, hlevel]),
      List.forM_cons]
    rfl
  · rw [taken, chain, List.tail_cons, upcoming_cons _ hlevel]
    rfl

end

/-! ### Where taking stops -/

section

variable {operator : τ → Prop} {first op item : τ} {rest : List τ}

theorem stops_succ {k : Nat} :
    Stops operator (first :: op :: item :: rest) (k + 1) ↔ Stops operator (item :: rest) k := by
  rfl

/-- If a climb may not stop at once, it first stops one operator later than from the next operand
on. -/
theorem isLeast_stops_succ {k : Nat} (hop : operator op)
    (h : IsLeast {k | Stops operator (item :: rest) k} k) :
    IsLeast {k | Stops operator (first :: op :: item :: rest) k} (k + 1) := by
  refine ⟨stops_succ.2 h.1, ?_⟩
  rintro (_ | j) hj
  · rcases hj with hj | hj
    · exact absurd hop (hj op rfl)
    · simp at hj
  · exact Nat.succ_le_succ (h.2 (stops_succ.1 hj))

/-- How taking ends: it stops at the first place where it may, and complains if that place is an
operator. -/
theorem exists_taking {grammar : Grammar ε τ} {items : List τ} (hne : items ≠ [])
    (hread : grammar.Readable items) :
    ∃ k, IsLeast {k | Stops grammar.IsOperator items k} k ∧
      ((∃ op, items[2 * k + 1]? = some op ∧ grammar.IsOperator op ∧ items[2 * k + 2]? = none ∧
          taking grammar items = throw (grammar.missingOperand op)) ∨
        (∀ op ∈ items[2 * k + 1]?, ¬ grammar.IsOperator op) ∧ taking grammar items = pure () ∧
          taken grammar items = k) := by
  induction items using List.twoStepInduction with
  | nil => exact absurd rfl hne
  | singleton first =>
    obtain ⟨htaking, htaken⟩ :=
      @taking_stop _ _ grammar first [] (by simp [Grammar.ReadableHead]) (by simp)
    refine ⟨0, ⟨Or.inr rfl, fun _ _ => Nat.zero_le _⟩, Or.inr ⟨?_, htaking, htaken⟩⟩
    simp
  | cons_cons first op rest ih _ =>
    by_cases hop : grammar.IsOperator op
    · cases rest with
      | nil =>
        refine ⟨0, ⟨Or.inr rfl, fun _ _ => Nat.zero_le _⟩, Or.inl ⟨op, rfl, hop, rfl, ?_⟩⟩
        exact taking_missing hop
      | cons item rest =>
        -- One operator with its operand is taken, and the rest from that operand on.
        obtain ⟨k, hleast, hends⟩ := ih (by simp) fun i => hread (i + 1)
        obtain ⟨htaking, htaken⟩ := @taking_step _ _ grammar first op item rest hop
        refine ⟨k + 1, isLeast_stops_succ hop hleast, ?_⟩
        rw [htaking, htaken, Nat.succ_inj]
        exact hends
    · have hstop : ∀ next ∈ (op :: rest).head?, ¬ grammar.IsOperator next := by simpa using hop
      obtain ⟨htaking, htaken⟩ := @taking_stop _ _ grammar first (op :: rest) (hread 0) hstop
      refine ⟨0, ⟨Or.inl ?_, fun _ _ => Nat.zero_le _⟩, Or.inr ⟨?_, htaking, htaken⟩⟩
      · exact hstop
      · exact hstop

end

/-! ### Callbacks -/

/-- Callbacks that always succeed. -/
structure Hooks.Total (hooks : Hooks σ ε τ α) : Prop where
  primary : ∀ n item s, ∃ a s', (hooks.primary n item).run.run s = (.ok a, s')
  combine : ∀ n left op right s, ∃ a s', (hooks.combine n left op right).run.run s = (.ok a, s')

/-- Callbacks that are not told how many outcomes have been delivered. -/
structure Hooks.Uncounted (hooks : Hooks σ ε τ α) : Prop where
  primary : ∀ m n, hooks.primary m = hooks.primary n
  combine : ∀ m n, hooks.combine m = hooks.combine n

/-- Callbacks that always succeed do nothing that matters for what is taken. -/
theorem Hooks.Total.follow {hooks : Hooks σ ε τ α} (h : hooks.Total) :
    hooks.Follow (fun _ => (pure () : Act Unit ε Unit)) (fun _ _ _ => pure ()) (fun _ _ => True)
      fun _ _ => True where
  primary n item s t _ := by
    obtain ⟨a, s', hrun⟩ := h.primary n item s
    rw [hrun]
    exact .ok ⟨trivial, trivial⟩
  combine n op a b v w _ _ s t _ := by
    obtain ⟨c, s', hrun⟩ := h.combine n a op b s
    rw [hrun]
    exact .ok ⟨trivial, trivial⟩
  observe _ _ _ _ := trivial

/-- Callbacks that are not told how many outcomes have been delivered go along with themselves. -/
theorem Hooks.Uncounted.like {hooks : Hooks σ ε τ α} (h : hooks.Uncounted) :
    hooks.Like Eq Eq Eq hooks where
  primary n₁ n₂ a₁ a₂ ha := by
    rw [h.primary n₁ n₂, ha]
    exact Act.Like.refl _
  combine n₁ n₂ v₁ v₂ a₁ a₂ w₁ w₂ hv ha hw := by
    rw [h.combine n₁ n₂, hv, ha, hw]
    exact Act.Like.refl _
  absorbing _ ha _ _ hs := by rw [ha, hs]
  reducing _ ha _ _ hs := by rw [ha, hs]

/-- Buffers that are still to deliver the same items give the same value or complaint and the same
state of the callbacks, and are then still to deliver the same items. -/
theorem runClimb_congr {grammar : Grammar ε τ} {hooks : Hooks σ ε τ α} (h : hooks.Uncounted)
    {buffer other : Buffer ε τ} (hbuffer : other.remaining = buffer.remaining) (s : σ) :
    ∃ rest, rest.remaining = ((runClimb grammar hooks buffer).run s).1.2.remaining ∧
      (runClimb grammar hooks other).run s =
        ((((runClimb grammar hooks buffer).run s).1.1, rest),
          ((runClimb grammar hooks buffer).run s).2) := by
  have hends := climb_like (Grammar.Like.refl grammar) h.like ⟨other, s⟩ ⟨buffer, s⟩
    ⟨Buffer.Like.of_remaining_eq hbuffer, rfl⟩
  simp only [run_runClimb]
  revert hends
  generalize (climb grammar hooks).run.run ⟨other, s⟩ = end₁
  generalize (climb grammar hooks).run.run ⟨buffer, s⟩ = end₂
  intro hends
  cases hends with
  | ok hok => exact ⟨_, hok.2.1.remaining_eq, by rw [hok.1, hok.2.2]⟩
  | error herror => exact ⟨_, herror.2.1.remaining_eq, by rw [herror.1, herror.2.2]⟩

/-- How a climb ends depends only on which items at odd positions are operators. If there are no
items it complains; otherwise it stops at the first place where it may, which is the end of the items
if there is an operator, about which it then complains, and else leaves the items from that place on.
Any two buffers that are still to deliver the items give the same value or complaint, the same calls
of the callbacks, and leave the same items. -/
theorem runClimb_consumption [RuleKey ρ] (climber : Climber ρ) (reader : RuleReader ε τ ρ)
    (emptyInput : ε) (missingOperand : τ → ε) {hooks : Hooks σ ε τ α} (htotal : hooks.Total)
    (items : List τ) (hread : (climber.grammar reader emptyInput missingOperand).Readable items)
    (buffer : Buffer ε τ) (hbuffer : buffer.remaining = items.map .item) (s : σ) :
    let grammar := climber.grammar reader emptyInput missingOperand
    let ends := (runClimb grammar hooks buffer).run s
    (items = [] → ends.1.1 = .error emptyInput) ∧
      (items ≠ [] → ∃ k, IsLeast {k | Stops grammar.IsOperator items k} k ∧
        ((∃ op, items[2 * k + 1]? = some op ∧ grammar.IsOperator op ∧ items[2 * k + 2]? = none ∧
            ends.1.1 = .error (missingOperand op)) ∨
          (∀ op ∈ items[2 * k + 1]?, ¬ grammar.IsOperator op) ∧ (∃ value, ends.1.1 = .ok value) ∧
            ends.1.2.remaining = (items.drop (2 * k + 1)).map .item)) ∧
      (hooks.Uncounted → ∀ other : Buffer ε τ, other.remaining = items.map .item →
        ∃ rest, rest.remaining = ends.1.2.remaining ∧
          (runClimb grammar hooks other).run s = ((ends.1.1, rest), ends.2)) := by
  intro grammar ends
  -- No callback fails, so the climb ends as the outline without callbacks does.
  have hends := climb_outline grammar htotal.follow items ⟨buffer, s⟩ () ⟨hbuffer, trivial⟩
  have hrun : ends = _ := run_runClimb grammar hooks buffer s
  refine ⟨fun hnil => ?_, fun hne => ?_, fun huncounted other hother => ?_⟩
  · subst hnil
    rw [outline_nil, run_throw] at hends
    obtain ⟨e, s', hclimb, he, -⟩ := hends.of_error
    rw [hrun, hclimb, he]
    rfl
  · obtain ⟨k, hleast, ⟨op, hsome, hop, hnone, htaking⟩ | ⟨hop, htaking, htaken⟩⟩ :=
      exists_taking hne hread
    · rw [← taking, htaking, run_throw] at hends
      obtain ⟨e, s', hclimb, he, -⟩ := hends.of_error
      refine ⟨k, hleast, Or.inl ⟨op, hsome, hop, hnone, ?_⟩⟩
      rw [hrun, hclimb, he]
      rfl
    · rw [← taking, htaking, run_pure] at hends
      obtain ⟨value, s', hclimb, -, hrest, -⟩ := hends.of_ok
      refine ⟨k, hleast, Or.inr ⟨hop, ?_, ?_⟩⟩
      · rw [hrun, hclimb]
        exact ⟨value, rfl⟩
      · rw [hrun, hclimb, hrest.remaining, leftover, ← taken, htaken, List.drop_tail]
  · exact runClimb_congr huncounted (hother.trans hbuffer.symm) s

/-- In two numbers with a plus between them, a third number and a minus, the climb stops before the
third number, and leaves it and the minus. -/
theorem runClimb_consumption_leftover :
    let items : List Kind := [.num, .op .plus, .num, .num, .op .minus]
    let reader : RuleReader String Kind Kind := ⟨.ok, fun _ => false, id⟩
    let grammar := (⟨Kind.groups, Kind.table⟩ : Climber Kind).grammar reader "empty" Kind.name
    treeHooks.Total ∧ grammar.Readable items ∧
      ((runClimb grammar treeHooks (.ofList items)).run ()).1.2.remaining =
        [Kind.num, .op .minus].map .item := by
  intro items reader grammar
  have htotal : treeHooks.Total :=
    ⟨fun _ _ s => ⟨_, s, rfl⟩, fun _ _ _ _ s => ⟨_, s, rfl⟩⟩
  have hread : grammar.Readable items := fun i op _ e => nofun
  refine ⟨htotal, hread, ?_⟩
  obtain ⟨k, hleast, hends⟩ := (runClimb_consumption ⟨Kind.groups, Kind.table⟩ reader "empty"
    Kind.name htotal items hread (.ofList items) rfl ()).2.1 (List.cons_ne_nil _ _)
  have hnum : ¬ grammar.IsOperator .num := fun ⟨_, h⟩ => nomatch h
  have hone : Stops grammar.IsOperator items 1 := Or.inl (by rintro _ ⟨⟩; exact hnum)
  have hzero : ¬ Stops grammar.IsOperator items 0 := by
    rintro (h | h)
    · exact h (.op .plus) rfl ⟨_, rfl⟩
    · cases h
  obtain rfl : k = 1 := by
    have hle := hleast.2 hone
    rcases Nat.le_one_iff_eq_zero_or_eq_one.1 hle with rfl | rfl
    · exact absurd hleast.1 hzero
    · rfl
  rcases hends with ⟨op, hsome, hop, -⟩ | ⟨-, -, hrest⟩
  · cases hsome
    exact absurd hop hnum
  · exact hrest

end Precedence
