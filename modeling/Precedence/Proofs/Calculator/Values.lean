import Mathlib
import Precedence.Calculator.Evaluation
import Precedence.Proofs.Nested

/-!
# Expressions of values

An expression may be given as a pair of values, whose rules are names. Where the values come from
tokens, its tree is that of the tokens, and so is the complaint if there is none.

A climb knows of pairs and complaints only what its callbacks say about them. With other pairs in
their place it does the same, if the callbacks do.

## Main definitions

- `Grammar.mapError` — a grammar with other complaints
- `Nesting.Mirrors` — a way to reduce pairs that does the same with other pairs in their place

## Main statements

- `outline_mapError` — the outline of a climb with other complaints
- `Nesting.Mirrors.reduceInner` — other pairs are reduced as those that they stand for
- `tree_eq_climbExpr` — the structure of a text as that of an expression of values
-/

namespace Precedence

variable {σ ε ε' τ ρ ρ' β β' α : Type}

/-! ### Other complaints -/

section

variable (F : ε → ε')

@[simp] theorem adapt_pure (a : α) : (pure a : Act σ ε α).adapt F = pure a := rfl

theorem adapt_ofExcept (x : Except ε α) :
    (MonadExcept.ofExcept x : Act σ ε α).adapt F = MonadExcept.ofExcept (x.mapError F) := by
  cases x <;> rfl

theorem adapt_bind {γ : Type} (m : Act σ ε α) (k : α → Act σ ε γ) :
    (m >>= k).adapt F = m.adapt F >>= fun a => (k a).adapt F := by
  refine act_ext fun s => ?_
  have hrun {δ : Type} (m : Act σ ε δ) :
      (m.adapt F).run.run s = ((m.run.run s).1.mapError F, (m.run.run s).2) := rfl
  rw [hrun, run_bind, run_bind, hrun]
  rcases m.run.run s with ⟨result, s'⟩
  cases result <;> rfl

/-- A grammar with other complaints. -/
def Grammar.mapError (grammar : Grammar ε τ) : Grammar ε' τ :=
  ⟨fun item => (grammar.level? item).mapError F, F grammar.emptyInput, F ∘ grammar.missingOperand⟩

variable {grammar : Grammar ε τ} {primary : τ → Act σ ε α}

theorem glance_mapError (items : List τ) :
    (glance (grammar.mapError F) items : Act σ ε' Unit) = (glance grammar items).adapt F := by
  cases items with
  | nil => rfl
  | cons item rest =>
    simp only [glance, Grammar.mapError]
    cases grammar.level? item <;> rfl

theorem operandOf_mapError (items : List τ) :
    operandOf (grammar.mapError F) (fun item => (primary item).adapt F) items =
      (operandOf grammar primary items).adapt F := by
  cases items with
  | nil => rfl
  | cons item rest =>
    simp only [operandOf, adapt_bind, adapt_pure, glance_mapError]

theorem operandAfter_mapError (items : List τ) :
    operandAfter (grammar.mapError F) (fun item => (primary item).adapt F) items =
      (operandAfter grammar primary items).adapt F := by
  match items with
  | [] => rfl
  | [op] => rfl
  | _ :: item :: rest => exact operandOf_mapError F (item :: rest)

/-- The links of a chain depend on which items are operators, and not on complaints. -/
theorem upcoming_congr {γ : Type} {level₁? : τ → Except ε (Option Level)}
    {level₂? : τ → Except ε' (Option Level)}
    (h : ∀ op level, level₁? op = .ok (some level) ↔ level₂? op = .ok (some level))
    (act : List τ → γ) (items : List τ) :
    upcoming level₁? act items = upcoming level₂? act items := by
  have hnone {op : τ} (hop : ∀ level, level₂? op ≠ .ok (some level)) (rest : List τ) :
      upcoming level₁? act (op :: rest) = [] :=
    upcoming_eq_nil rest fun level hlevel => hop level ((h op level).1 hlevel)
  fun_induction upcoming level₂? act items with
  | case1 => rfl
  | case2 op level hlevel => exact upcoming_cons [] ((h op level).2 hlevel)
  | case3 op hop => exact hnone hop []
  | case4 op item rest level hlevel ih =>
    rw [upcoming_cons _ ((h op level).2 hlevel), List.tail_cons, ih]
  | case5 op item rest hop => exact hnone hop _

theorem mapError_eq_ok_iff {x : Except ε α} {a : α} : x.mapError F = .ok a ↔ x = .ok a := by
  cases x <;> simp [Except.mapError]

theorem chain_mapError (items : List τ) :
    chain (grammar.mapError F) (fun item => (primary item).adapt F) items =
      (chain grammar primary items).map (Link.map id (ExceptT.adapt F)) := by
  have hafter : operandAfter (grammar.mapError F) (fun item => (primary item).adapt F) =
      ExceptT.adapt F ∘ operandAfter grammar primary := funext (operandAfter_mapError F)
  have hlevel : ∀ op level, (grammar.mapError F).level? op = .ok (some level) ↔
      grammar.level? op = .ok (some level) := fun _ _ => mapError_eq_ok_iff F
  rw [chain, chain, upcoming_congr hlevel, hafter, upcoming_id,
    @upcoming_id _ _ _ _ (operandAfter grammar primary), List.map_map]
  rfl

/-- An outline with other complaints. -/
theorem outline_mapError (combine : α → τ → α → Act σ ε α) (items : List τ) :
    outline (grammar.mapError F) (fun item => (primary item).adapt F)
        (fun left op right => (combine left op right).adapt F) items =
      (outline grammar primary combine items).adapt F := by
  rw [outline, outline, operandOf_mapError, chain_mapError]
  refine (map_bracket _ id (ExceptT.adapt F) (fun left link right => ?_) _ _).symm
  simp only [inTurn, adapt_bind]
  rfl

theorem leftover_mapError (items : List τ) :
    leftover (grammar.mapError F) (fun item => (primary item).adapt F) items =
      leftover grammar primary items := by
  rw [leftover, leftover, chain_mapError, List.length_map]

end

/-! ### Other pairs -/

theorem Pair.inner_map (onRule : ρ → ρ') (onBound : β → β') (pair : Pair ρ β) :
    (pair.map onRule onBound).inner = pair.inner.map (Pair.map onRule onBound) := by
  have hall (pairs : List (Pair ρ β)) :
      Pair.mapAll onRule onBound pairs = pairs.map (Pair.map onRule onBound) := by
    induction pairs with
    | nil => rfl
    | cons pair rest ih => rw [List.map_cons, ← ih]; rfl
  cases pair
  exact hall _

/-- What `n` does with pairs, `n'` does with pairs that have other rules and bounds in their place.
Its complaints are others too. Neither does anything when the observer is told something. -/
structure Nesting.Mirrors (onRule : ρ → ρ') (onBound : β → β') (F : ε → ε')
    (n : Nesting σ ε ρ β α) (n' : Nesting σ ε' ρ' β' α) : Prop where
  level? pair : n'.level? (pair.map onRule onBound) = (n.level? pair).mapError F
  visit pair : n'.visit (pair.map onRule onBound) = (n.visit pair).adapt F
  combine left op right :
    n'.combine left (op.map onRule onBound) right = (n.combine left op right).adapt F
  emptyInner pair : n'.emptyInner (pair.map onRule onBound) = F (n.emptyInner pair)
  missingOperand op : n'.missingOperand (op.map onRule onBound) = F (n.missingOperand op)
  excess pair : n'.excess (pair.map onRule onBound) = (n.excess pair).mapError F
  silent : n.Silent
  silent' : n'.Silent

namespace Nesting.Mirrors

variable {onRule : ρ → ρ'} {onBound : β → β'} {F : ε → ε'} {n : Nesting σ ε ρ β α}
  {n' : Nesting σ ε' ρ' β' α}

theorem innerGrammar (h : Mirrors onRule onBound F n n') (parent : Pair ρ β) :
    (n'.innerGrammar (parent.map onRule onBound)).comap (Pair.map onRule onBound) =
      (n.innerGrammar parent).mapError F := by
  rw [Grammar.comap, Grammar.mapError, Grammar.mk.injEq]
  exact ⟨funext h.level?, h.emptyInner parent, funext h.missingOperand⟩

theorem check (h : Mirrors onRule onBound F n n') (left : List (Pair ρ β)) :
    n'.check (left.map (Pair.map onRule onBound)) = (n.check left).mapError F := by
  cases left with
  | nil => rfl
  | cons pair rest => exact h.excess pair

/-- The inner pairs of a pair are reduced as those that they stand for, if each of them is. -/
theorem reduceInner_of_inner (h : Mirrors onRule onBound F n n') {parent : Pair ρ β}
    (hinner : ∀ pair ∈ parent.inner,
      n'.reduce (pair.map onRule onBound) = (n.reduce pair).adapt F) :
    n'.reduceInner (parent.map onRule onBound) = (n.reduceInner parent).adapt F := by
  have hcombine : (fun left op right => n'.combine left (Pair.map onRule onBound op) right) =
      fun left op right => (n.combine left op right).adapt F := by
    funext left op right
    exact h.combine left op right
  have houtline : outline (n'.innerGrammar (parent.map onRule onBound)) n'.reduce n'.combine
        (parent.inner.map (Pair.map onRule onBound)) =
      (outline (n.innerGrammar parent) n.reduce n.combine parent.inner).adapt F := by
    rw [outline_map, h.innerGrammar, hcombine, ← outline_mapError]
    refine outline_rel Eq (fun _ _ => rfl) (fun item hitem rest => ?_) ?_
    · simp only [operandOf, Function.comp_apply, hinner item hitem]
    · rintro op - level - left _ right _ rfl rfl
      rfl
  have hleftover : leftover (n'.innerGrammar (parent.map onRule onBound)) n'.reduce
        (parent.inner.map (Pair.map onRule onBound)) =
      (leftover (n.innerGrammar parent) n.reduce parent.inner).map (Pair.map onRule onBound) := by
    rw [leftover_map, h.innerGrammar,
      leftover_eq _ _ (fun pair => (n.reduce pair).adapt F) parent.inner, leftover_mapError]
  rw [reduceInner_eq h.silent', reduceInner_eq h.silent, Nesting.outlineInner, Nesting.outlineInner,
    Pair.inner_map, houtline, hleftover, h.check]
  simp only [adapt_bind, adapt_ofExcept, adapt_pure]

/-- All pairs are reduced as those that they stand for. -/
theorem reduce (h : Mirrors onRule onBound F n n') (pair : Pair ρ β) :
    n'.reduce (pair.map onRule onBound) = (n.reduce pair).adapt F := by
  induction pair using Pair.induction with
  | step pair ih =>
    have hfinish (value? : Option α) :
        n'.finish (pair.map onRule onBound) (n'.reducers (pair.map onRule onBound).inner) value? =
          (n.finish pair (n.reducers pair.inner) value?).adapt F := by
      cases value? with
      | some value => rfl
      | none => exact h.reduceInner_of_inner ih
    rw [Nesting.reduce_eq, Nesting.reduce_eq, h.visit, adapt_bind]
    exact bind_congr hfinish

theorem reduceInner (h : Mirrors onRule onBound F n n') (parent : Pair ρ β) :
    n'.reduceInner (parent.map onRule onBound) = (n.reduceInner parent).adapt F :=
  h.reduceInner_of_inner fun pair _ => h.reduce pair

end Nesting.Mirrors

/-! ### Expressions of values -/

/-- The level of a kind of tokens is found by its name. -/
theorem calcClimber_level? (token : Token) :
    calcClimber.level? RuleAccess.rule.reader (.pair token.toValuePair) =
      .ok (Kind.table.find? token.rule) := by
  cases token with
  | mk kind start stop inner =>
    cases kind with
    | op o => cases o <;> rfl
    | _ => rfl

/-- The tree of an expression of tokens is found by their names as well. -/
theorem pairReduction_mirrors (source : Source) :
    Nesting.Mirrors Kind.toValue .index (CalcFault.toFault Token.toValuePair)
      (reduction false (fun token => pure (.leaf (source.tokenText token))) source.treeNode)
      (pairReduction source false false) where
  level? := calcClimber_level?
  visit pair := by
    obtain ⟨kind, start, stop, inner⟩ := pair
    cases kind with
    | op o => cases o <;> rfl
    | _ => rfl
  combine left op right := by
    obtain ⟨kind, start, stop, inner⟩ := op
    rfl
  emptyInner pair := rfl
  missingOperand op := rfl
  excess pair := rfl
  silent _ _ := rfl
  silent' _ _ := rfl

/-- The structure of a text is found by the climb of its expression taken as one of values, with the
same complaints. -/
theorem tree_eq_climbExpr (source : Source) :
    (source.tree false).adapt (CalcFault.toFault Token.toValuePair) =
      (source.expression false).adapt (CalcFault.toFault Token.toValuePair) >>= fun expr =>
        climbExpr source false false expr.toValuePair := by
  rw [Source.tree, adapt_bind]
  exact bind_congr fun expr => ((pairReduction_mirrors source).reduceInner expr).symm

end Precedence
