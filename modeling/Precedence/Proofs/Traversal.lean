import Mathlib
import Precedence.Proofs.Postorder
import Precedence.Proofs.Reference

/-!
# Recorded callbacks

A bracketing of callbacks that record their calls goes along the post-order of the reference tree of
its chain, and so does the outline of a climb. What a climb leaves is told by how many of the calls
have been made.

## Main definitions

- `Callbacks`, `Callbacks.hooks` — callbacks that know nothing of the climb
- `Callbacks.recorded` — callbacks that record their calls with the results
- `chainTree` — the reference tree of a chain
- `Act.Walks`, `Act.WalksTo` — actions that make the calls of a traversal, or those before its last
  leaf
- `Reached` — how far the recorded calls have come

## Main statements

- `bracket_walks`, `bracket_walksTo` — bracketings of recorded callbacks
- `recorded_ends` — a recorded climb ends as its outline does, with the items after the last operand
-/

namespace Precedence

variable {σ ω ε τ α : Type}

/-! ### Callbacks -/

/-- The callbacks of a climb, which are told nothing but the items and the values. -/
structure Callbacks (σ ε τ α : Type) where
  primary : τ → Act σ ε α
  combine : α → τ → α → Act σ ε α

/-- An action beside another state, which is told the result. -/
def Act.beside (m : Act σ ε α) (tell : Except ε α → ω → ω) : Act (σ × ω) ε α := do
  let s ← get
  let (result, s') := m.run.run s.1
  set (s', tell result s.2)
  MonadExcept.ofExcept result

@[simp] theorem run_beside (m : Act σ ε α) (tell : Except ε α → ω → ω) (s : σ × ω) :
    (m.beside tell).run.run s =
      ((m.run.run s.1).1, (m.run.run s.1).2, tell (m.run.run s.1).1 s.2) := by
  rw [Act.beside, run_bind_ok (run_get s)]
  rcases m.run.run s.1 with ⟨result, s'⟩
  cases result <;> rfl

namespace Callbacks

/-- Callbacks for a climb whose observer has a state of its own. -/
def hooks (callbacks : Callbacks σ ε τ α) (observe : Note τ → StateM ω Unit) :
    Hooks (σ × ω) ε τ α where
  primary _ item := (callbacks.primary item).beside fun _ seen => seen
  combine _ left op right := (callbacks.combine left op right).beside fun _ seen => seen
  observe note := modify fun s => (s.1, ((observe note).run s.2).2)

/-- Callbacks that record every call with its result. -/
def recorded (callbacks : Callbacks σ ε τ α) :
    Callbacks (σ × List (Response ε τ α)) ε τ α where
  primary item := (callbacks.primary item).beside fun result log => log ++ [.operand item result]
  combine left op right :=
    (callbacks.combine left op right).beside fun result log =>
      log ++ [.operator left op right result]

variable (callbacks : Callbacks σ ε τ α)

theorem run_primary (item : τ) (s : σ) (log : List (Response ε τ α)) :
    (callbacks.recorded.primary item).run.run (s, log) =
      (((callbacks.primary item).run.run s).1, ((callbacks.primary item).run.run s).2,
        log ++ [.operand item ((callbacks.primary item).run.run s).1]) := by
  rw [recorded, run_beside]

theorem run_combine (left : α) (op : τ) (right : α) (s : σ) (log : List (Response ε τ α)) :
    (callbacks.recorded.combine left op right).run.run (s, log) =
      (((callbacks.combine left op right).run.run s).1,
        ((callbacks.combine left op right).run.run s).2,
        log ++ [.operator left op right ((callbacks.combine left op right).run.run s).1]) := by
  rw [recorded, run_beside]

/-- Recording makes no difference. -/
theorem recorded_like (observe : Note τ → StateM ω Unit) :
    (callbacks.recorded.hooks observe).Like Eq Eq (fun s t => s.1.1 = t.1 ∧ s.2 = t.2)
      (callbacks.hooks observe) where
  primary n₁ n₂ a₁ a₂ ha := by
    rw [ha]
    refine Act.Like.of_fst_eq (fun _ => rfl) ?_
    rintro ⟨⟨u, log⟩, w⟩ ⟨_, _⟩ ⟨rfl, rfl⟩
    simp [hooks, recorded]
  combine n₁ n₂ v₁ v₂ a₁ a₂ w₁ w₂ hv ha hw := by
    rw [hv, ha, hw]
    refine Act.Like.of_fst_eq (fun _ => rfl) ?_
    rintro ⟨⟨u, log⟩, w⟩ ⟨_, _⟩ ⟨rfl, rfl⟩
    simp [hooks, recorded]
  absorbing prec ha s₁ s₂ hs := by
    rw [ha]
    exact ⟨hs.1, congrArg (fun seen => ((observe _).run seen).2) hs.2⟩
  reducing prec ha s₁ s₂ hs := by
    rw [ha]
    exact ⟨hs.1, congrArg (fun seen => ((observe _).run seen).2) hs.2⟩

end Callbacks

/-! ### Walks -/

/-- The reference tree of a chain. -/
def chainTree (first : τ) (links : List (Link τ τ)) : Tree τ :=
  reference .leaf (fun left op right => .node op left right) first links

section

variable (first : τ) (links : List (Link τ τ))

/-- The operands and operators of a chain are those of its tree, in the same order. -/
theorem leaves_chainTree :
    (chainTree first links).leaves = first :: links.map (·.operand) ∧
      (chainTree first links).ops = links.map (·.op) := by
  induction links using split_induction generalizing first with
  | nil => exact ⟨by rw [chainTree, reference_nil]; rfl, by rw [chainTree, reference_nil]; rfl⟩
  | @split links before link after hsplit hparts ihBefore ihAfter =>
    rw [chainTree, reference_split _ _ hsplit, Tree.leaves, Tree.ops, hparts]
    change (chainTree first before).leaves ++ (chainTree link.operand after).leaves = _ ∧
      (chainTree first before).ops ++ link.op :: (chainTree link.operand after).ops = _
    obtain ⟨hleavesBefore, hopsBefore⟩ := ihBefore first
    obtain ⟨hleavesAfter, hopsAfter⟩ := ihAfter link.operand
    rw [hleavesBefore, hopsBefore, hleavesAfter, hopsAfter]
    simp

theorem getLast?_leaves (t : Tree τ) : t.leaves.getLast? = some t.last := by
  induction t with
  | leaf a => rfl
  | node op left right _ ih => rw [Tree.leaves, List.getLast?_append, ih, Tree.last]; rfl

theorem last_chainTree_concat (link : Link τ τ) :
    (chainTree first (links ++ [link])).last = link.operand := by
  have hlast := getLast?_leaves (chainTree first (links ++ [link]))
  rw [(leaves_chainTree _ _).1, List.map_append, ← List.cons_append, List.getLast?_append] at hlast
  exact (Option.some.inj hlast).symm

end

/-- An action makes the calls of a traversal. -/
def Act.Walks (m : Act (σ × List (Response ε τ α)) ε α) (t : Tree τ) : Prop :=
  ∀ s log, ∃ result s' calls,
    m.run.run (s, log) = (result, s', log ++ calls) ∧ t.Performs calls result

/-- An action makes the calls of a traversal before that for the last leaf; if none of them fails, it
goes on with the action `final`, and fails if that does. -/
def Act.WalksTo (final m : Act (σ × List (Response ε τ α)) ε α) (t : Tree τ) : Prop :=
  ∀ s log,
    (∃ e s' calls, m.run.run (s, log) = (.error e, s', log ++ calls) ∧
      t.Performs calls (.error e) ∧ calls.map Response.step <+: t.beforeLast) ∨
    ∃ s' calls, t.Awaits calls ∧ ∀ e s'', final.run.run (s', log ++ calls) = (.error e, s'') →
      m.run.run (s, log) = (.error e, s'')

section

variable (callbacks : Callbacks σ ε τ α) {m n final : Act (σ × List (Response ε τ α)) ε α}
  {left right : Tree τ}

theorem walks_primary (item : τ) : (callbacks.recorded.primary item).Walks (.leaf item) :=
  fun s log => ⟨_, _, _, callbacks.run_primary item s log, .leaf item _⟩

theorem walksTo_leaf (final : Act (σ × List (Response ε τ α)) ε α) (item : τ) :
    Act.WalksTo final final (.leaf item) := by
  refine fun s log => Or.inr ⟨s, [], .leaf item, fun e s' hfinal => ?_⟩
  rwa [List.append_nil] at hfinal

theorem walks_inTurn (link : Link τ (Act (σ × List (Response ε τ α)) ε α)) (hleft : m.Walks left)
    (hright : n.Walks right) :
    (inTurn callbacks.recorded.combine m link n).Walks (.node link.op left right) := by
  intro s log
  obtain ⟨result, s', front, hm, hfront⟩ := hleft s log
  cases result with
  | error e => exact ⟨_, _, _, run_bind_error hm, .left_error hfront⟩
  | ok a =>
    obtain ⟨result, s'', back, hn, hback⟩ := hright s' (log ++ front)
    rw [inTurn, run_bind_ok hm]
    cases result with
    | error e => exact ⟨_, _, _, by rw [run_bind_error hn, List.append_assoc],
        .right_error hfront hback⟩
    | ok b =>
      have hcombine := callbacks.run_combine a link.op b s'' (log ++ front ++ back)
      rw [List.append_assoc, List.append_assoc] at hcombine
      rw [run_bind_ok hn, List.append_assoc]
      exact ⟨_, _, _, hcombine, .node _ hfront hback⟩

theorem walksTo_inTurn (link : Link τ (Act (σ × List (Response ε τ α)) ε α)) (hleft : m.Walks left)
    (hright : Act.WalksTo final n right) :
    Act.WalksTo final (inTurn callbacks.recorded.combine m link n) (.node link.op left right) := by
  intro s log
  obtain ⟨result, s', front, hm, hfront⟩ := hleft s log
  cases result with
  | error e =>
    refine Or.inl ⟨e, s', front, run_bind_error hm, .left_error hfront, ?_⟩
    exact hfront.steps_error.1.trans (List.prefix_append _ _)
  | ok a =>
    rw [inTurn, run_bind_ok hm]
    rcases hright s' (log ++ front) with ⟨e, s'', back, hn, hback, hsteps⟩ | ⟨s'', back, hback, hn⟩
    · refine Or.inl ⟨e, s'', front ++ back, ?_, .right_error hfront hback, ?_⟩
      · rw [run_bind_error hn, List.append_assoc]
      · rw [List.map_append, hfront.steps_ok.1, Tree.beforeLast]
        exact (List.prefix_append_right_inj _).2 hsteps
    · refine Or.inr ⟨s'', front ++ back, .node hfront hback, fun e s₃ hfinal => ?_⟩
      rw [← List.append_assoc] at hfinal
      exact run_bind_error (hn e s₃ hfinal)

variable (first : τ) (links : List (Link τ τ))

/-- The bracketing of a chain of recorded callbacks walks the tree of the chain. -/
theorem bracket_walks :
    Act.Walks (bracket (inTurn callbacks.recorded.combine) (callbacks.recorded.primary first)
      (links.map (Link.map id callbacks.recorded.primary))) (chainTree first links) := by
  refine bracket_rel Act.Walks callbacks.recorded.primary Tree.leaf (fun link _ => ?_)
    (walks_primary callbacks first) fun link _ => walks_primary callbacks link.operand
  intro left₁ left₂ right₁ right₂ hleft hright
  exact walks_inTurn callbacks (link.map id callbacks.recorded.primary) hleft hright

/-- If the last operand has an action of its own, then the bracketing walks the tree up to there. -/
theorem bracket_walksTo (op last : τ) (level : Level) :
    Act.WalksTo final (bracket (inTurn callbacks.recorded.combine)
      (callbacks.recorded.primary first)
      (links.map (Link.map id callbacks.recorded.primary) ++ [⟨op, level, final⟩]))
      (chainTree first (links ++ [⟨op, level, last⟩])) := by
  -- Every operand goes with its action, so that one chain gives both the actions and the tree.
  let actions := links.map (Link.map id fun item => (item, callbacks.recorded.primary item))
  let ending : Link τ (τ × Act (σ × List (Response ε τ α)) ε α) := ⟨op, level, last, final⟩
  have hwalks : Act.WalksTo final
      (bracket (inTurn callbacks.recorded.combine) (callbacks.recorded.primary first)
        ((actions ++ [ending]).map (Link.map id fun operand => operand.2)))
      (bracket (fun left link right => .node link.op left right) (.leaf first)
        ((actions ++ [ending]).map (Link.map id fun operand => .leaf operand.1))) := by
    refine bracket_rel_concat Act.Walks (Act.WalksTo final) _ _
      (fun _ _ {_ _ _ _} hleft hright => walks_inTurn callbacks _ hleft hright)
      (fun _ _ {_ _ _ _} hleft hright => walksTo_inTurn callbacks _ hleft hright)
      (walks_primary callbacks first) (fun link hlink => ?_) (walksTo_leaf final last)
    obtain ⟨link, -, rfl⟩ := List.mem_map.1 hlink
    exact walks_primary callbacks link.operand
  rw [List.map_append, List.map_append, List.map_map, List.map_map] at hwalks
  rw [chainTree, reference, List.map_append]
  exact hwalks

end

/-! ### How far the calls have come -/

/-- The calls so far are for the first operand and for those of some links; the items that are left
are the other links and what follows them. -/
def Reached (first : τ) (links : List (Link τ τ)) (left : List τ)
    (calls : List (Response ε τ α)) (items : List τ) : Prop :=
  ∃ done todo, links = done ++ todo ∧ items = linkItems todo ++ left ∧
    calls.filterMap Response.operand? = first :: done.map (·.operand)

/-- A chain does not go on with the given items: they do not begin with an operator and its
operand. -/
def Grammar.EndsChain (grammar : Grammar ε τ) (left : List τ) : Prop :=
  ∀ op item rest, left = op :: item :: rest → ∀ level, grammar.level? op ≠ .ok (some level)

theorem drop_chain (first : τ) (links : List (Link τ τ)) (rest : List τ) :
    (first :: (linkItems links ++ rest)).drop (2 * (links.length + 1) - 1) = rest := by
  have hlength : 2 * (links.length + 1) - 1 = (linkItems links).length + 1 := by
    rw [length_linkItems]
    omega
  rw [hlength, List.drop_succ_cons, List.drop_left]

namespace Reached

variable {grammar : Grammar ε τ} {first : τ} {links : List (Link τ τ)} {left items : List τ}
  {calls : List (Response ε τ α)}

theorem initial (first : τ) (links : List (Link τ τ)) (left : List τ) (result : Except ε α) :
    Reached first links left [.operand first result] (linkItems links ++ left) :=
  ⟨[], links, rfl, rfl, rfl⟩

theorem operand {op item : τ} {level : Level} {rest : List τ}
    (h : Reached first links left calls (op :: item :: rest)) (hleft : grammar.EndsChain left)
    (hop : grammar.level? op = .ok (some level)) (result : Except ε α) :
    Reached first links left (calls ++ [.operand item result]) rest := by
  obtain ⟨done, todo, rfl, hitems, hcalls⟩ := h
  cases todo with
  | nil => exact absurd hop (hleft op item rest hitems.symm level)
  | cons link todo =>
    simp only [linkItems_cons, List.cons_append, List.cons.injEq] at hitems
    obtain ⟨-, rfl, rfl⟩ := hitems
    refine ⟨done ++ [link], todo, by rw [List.append_assoc, List.singleton_append], rfl, ?_⟩
    rw [List.filterMap_append, hcalls, List.map_append]
    rfl

theorem operator (h : Reached first links left calls items) (a : α) (op : τ) (b : α)
    (result : Except ε α) :
    Reached first links left (calls ++ [.operator a op b result]) items := by
  obtain ⟨done, todo, hlinks, hitems, hcalls⟩ := h
  refine ⟨done, todo, hlinks, hitems, ?_⟩
  rw [List.filterMap_append, hcalls]
  exact List.append_nil _

/-- The items after the last operand that there was a call for. -/
theorem items_eq (h : Reached first links left calls items) :
    items = (first :: (linkItems links ++ left)).drop
      (2 * (calls.filterMap Response.operand?).length - 1) := by
  obtain ⟨done, todo, rfl, rfl, hcalls⟩ := h
  rw [hcalls, List.length_cons, List.length_map, linkItems_append, List.append_assoc, drop_chain]

/-- If an operator alone is left, then it follows the chain. -/
theorem eq_of_singleton {op : τ} (h : Reached first links left calls [op]) : left = [op] := by
  obtain ⟨done, todo, rfl, hitems, -⟩ := h
  cases todo with
  | nil => exact hitems.symm
  | cons link todo => simp at hitems

end Reached

section

variable (callbacks : Callbacks σ ε τ α) (observe : Note τ → StateM ω Unit)
  {grammar : Grammar ε τ} {first : τ} {links : List (Link τ τ)} {left : List τ}

theorem beside_moves {m : Act σ ε α} {P P' : σ → Prop} (h : ∀ s, P s → P' (m.run.run s).2) :
    Act.Moves (fun (s : σ × ω) t => s.1 = t ∧ P t) Eq (fun s t => s.1 = t ∧ P' t)
      (m.beside fun _ seen => seen) m := by
  rintro ⟨s, seen⟩ _ ⟨rfl, hP⟩
  have hP' := h s hP
  rw [run_beside]
  revert hP'
  rcases m.run.run s with ⟨result, s'⟩
  intro hP'
  cases result with
  | ok a => exact .ok ⟨rfl, rfl, hP'⟩
  | error e => exact .error ⟨rfl, rfl, hP'⟩

/-- Recorded callbacks go along with themselves, and keep to the chain. -/
theorem recorded_escort (hleft : grammar.EndsChain left) :
    Hooks.Escort grammar (callbacks.recorded.hooks observe) callbacks.recorded.primary
      callbacks.recorded.combine Eq
      fun items s t => s.1 = t ∧ Reached first links left t.2 items where
  primary n op level item rest hop := by
    refine beside_moves fun s hreached => ?_
    rw [callbacks.run_primary]
    exact hreached.operand hleft hop _
  combine n op items a b v w ha hb := by
    rw [← ha, ← hb]
    refine beside_moves fun s hreached => ?_
    rw [callbacks.run_combine]
    exact hreached.operator a op b _
  observe _ _ _ _ hs := hs

/-- A recorded climb ends as its outline does. It leaves the items after the last operand that there
was a call for, unless that is followed by nothing but an operator. -/
theorem recorded_ends (hleft : grammar.EndsChain left) {buffer : Buffer ε τ}
    (hbuffer : buffer.remaining = (first :: (linkItems links ++ left)).map .item) (s : σ) (seen : ω)
    {result : Except ε α} {s' : σ} {calls : List (Response ε τ α)}
    (hrun : (outline grammar callbacks.recorded.primary callbacks.recorded.combine
      (first :: (linkItems links ++ left))).run.run (s, []) = (result, s', calls)) :
    let ends := (runClimb grammar (callbacks.recorded.hooks observe) buffer).run ((s, []), seen)
    ends.1.1 = result ∧ ends.2.1 = (s', calls) ∧
      (ends.1.2.remaining = ((first :: (linkItems links ++ left)).drop
          (2 * (calls.filterMap Response.operand?).length - 1)).map .item ∨
        ∃ op level, left = [op] ∧ grammar.level? op = .ok (some level)) := by
  intro ends
  have hfirst : ∀ n, Act.Moves (fun (s : (σ × List (Response ε τ α)) × ω) t => s.1 = t ∧ t.2 = [])
      Eq (fun s t => s.1 = t ∧ Reached first links left t.2 (linkItems links ++ left))
      ((callbacks.recorded.hooks observe).primary n first) (callbacks.recorded.primary first) := by
    refine fun n => beside_moves ?_
    rintro ⟨u, _⟩ rfl
    rw [callbacks.run_primary]
    exact Reached.initial first links left _
  have hends := climb_escorted (recorded_escort callbacks observe hleft) hfirst
    ⟨buffer, (s, []), seen⟩ (s, []) ⟨hbuffer, rfl, rfl⟩
  have hclimb : ends = _ := run_runClimb grammar (callbacks.recorded.hooks observe) buffer _
  rw [hrun] at hends
  rw [hclimb]
  revert hends
  generalize (climb grammar (callbacks.recorded.hooks observe)).run.run ⟨buffer, (s, []), seen⟩ =
    climbed
  intro hends
  cases hends with
  | ok hok =>
    obtain ⟨hvalue, hready, hstate, hreached⟩ := hok
    exact ⟨congrArg _ hvalue, hstate, Or.inl (by rw [hready.remaining, ← hreached.items_eq])⟩
  | error herror =>
    obtain ⟨hcomplaint, items, ⟨hstate, hreached⟩, hrest⟩ := herror
    refine ⟨congrArg _ hcomplaint, hstate, ?_⟩
    rcases hrest with hrest | ⟨op, level, rfl, hop⟩
    · exact Or.inl (by rw [hrest, ← hreached.items_eq])
    · exact Or.inr ⟨op, level, hreached.eq_of_singleton, hop⟩

end

/-! ### The outlines of recorded callbacks -/

section

variable (callbacks : Callbacks σ ε τ α) {grammar : Grammar ε τ} (first : τ) {op : τ}
  {links : List (Link τ τ)} {left : List τ}

/-- A climb that an item stops which is no operator walks the tree of its chain. -/
theorem outline_walks (hlinks : ∀ link ∈ links, grammar.level? link.op = .ok (some link.level))
    (hleft : ∀ next ∈ left.head?, grammar.level? next = .ok none) :
    Act.Walks (outline grammar callbacks.recorded.primary callbacks.recorded.combine
      (first :: (linkItems links ++ left))) (chainTree first links) := by
  rw [outline_linkItems_stop _ _ first hlinks hleft]
  exact bracket_walks callbacks first links

/-- A climb whose last operator lacks its operand walks the tree with an operand in its place up to
there. -/
theorem outline_missing_walksTo {level : Level} (last : τ)
    (hlinks : ∀ link ∈ links, grammar.level? link.op = .ok (some link.level))
    (hop : grammar.level? op = .ok (some level)) :
    Act.WalksTo (throw (grammar.missingOperand op))
      (outline grammar callbacks.recorded.primary callbacks.recorded.combine
        (first :: (linkItems links ++ [op])))
      (chainTree first (links ++ [⟨op, level, last⟩])) := by
  have hread : grammar.ReadableHead [op] := by simp [Grammar.ReadableHead, hop]
  rw [outline_linkItems_append _ _ first hlinks hread, upcoming_cons _ hop]
  exact bracket_walksTo callbacks first links op last level

end

end Precedence
