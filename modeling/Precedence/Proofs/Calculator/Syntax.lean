import Mathlib
import Precedence.Proofs.Calculator.Agreement
import Precedence.Proofs.Calculator.Structure

/-!
# Trees of tokens

The tree of a source with the tokens themselves in place of their texts. It tells where every number
and every operator stands, and whatever else an expression is reduced to is computed from it.

## Main definitions

- `Tree.map` — a tree with other values at its leaves and nodes
- `Tree.compute` — a value that is computed from a tree, or the first complaint
- `Source.syntaxTree` — the tree of a source with tokens in place of texts
- `Yields` — the numbers and operators of a tree in the order of the text

## Main statements

- `run_tree_eq_map` — the tree of a source is the one of its tokens' texts
- `run_reduction_of_syntaxTree` — what an expression is reduced to is computed from its tree
- `run_evaluate_of_syntaxTree` — and so is its value
- `yields_of_syntaxTree` — the tree has the tokens of the source but for the parentheses
-/

namespace Precedence

namespace Tree

variable {α β ε : Type}

/-- The tree with other values at its leaves and nodes. -/
def map (f : α → β) : Tree α → Tree β
  | leaf a => .leaf (f a)
  | node op left right => .node (f op) (left.map f) (right.map f)

/-- What is computed from a tree: at a node first the left side, then the right side, and then the
value of the node. The first complaint ends it. -/
def compute (onLeaf : α → Except ε β) (onNode : α → β → β → Except ε β) : Tree α → Except ε β
  | leaf a => onLeaf a
  | node op left right => do
    let a ← left.compute onLeaf onNode
    let b ← right.compute onLeaf onNode
    onNode op a b

end Tree

/-! ### The tree of tokens -/

/-- How the pairs of an expression are reduced to a tree of tokens. -/
def syntaxReduction (verbose : Bool) : Nesting Log (CalcFault Token) Kind Int (Tree Token) :=
  reduction verbose (fun token => pure (.leaf token)) fun op left right =>
    .ok (.node op left right)

/-- The structure of the expression in a source, with tokens in place of their texts. -/
def Source.syntaxTree (source : Source) (verbose : Bool) : CalcM (Tree Token) := do
  let expr ← source.expression verbose
  (syntaxReduction verbose).reduceInner expr

variable {source : Source} {verbose : Bool}

theorem syntaxReduction_stateless (verbose : Bool) : (syntaxReduction verbose).Stateless :=
  reduction_stateless verbose _ fun _ _ _ => rfl

theorem syntaxReduction_simple (verbose : Bool) :
    ((syntaxReduction verbose).fresh []).Simple (fun token => Kind.table.find? token.rule)
      (fun left op right => .node op left right) where
  silent _ _ := rfl
  level? _ := rfl
  combine _ _ _ := rfl
  excess _ := nofun

theorem outcome_visit_syntaxReduction (verbose : Bool) (token : Token) :
    (((syntaxReduction verbose).fresh []).visit token).outcome =
      match token.rule with
      | .num => .ok (some (.leaf token))
      | .expr => .ok none
      | _ => .error (.expectedOperand token) :=
  outcome_visit_reduction verbose _ _ token

/-- A pair with a tree is a number, or an expression whose chain has the tree. -/
theorem reduce_syntaxReduction_eq_ok {verbose : Bool} {pair : Token} {tree : Tree Token}
    (htree : (((syntaxReduction verbose).fresh []).reduce pair).outcome = .ok tree) :
    pair.rule = .num ∧ tree = .leaf pair ∨
      pair.rule = .expr ∧
        (((syntaxReduction verbose).fresh []).reduceInner pair).outcome = .ok tree := by
  rw [Nesting.reduce_eq, outcome_bind] at htree
  obtain ⟨value, hvisit, hfinish⟩ := bind_eq_ok.1 htree
  rw [outcome_visit_syntaxReduction] at hvisit
  split at hvisit
  next hrule =>
    cases hvisit
    cases hfinish
    exact Or.inl ⟨hrule, rfl⟩
  next hrule =>
    cases hvisit
    exact Or.inr ⟨hrule, hfinish⟩
  · cases hvisit

/-- What an expression is reduced to, if the lines that have been written make no difference. -/
theorem run_reduction {α : Type} (source : Source) (verbose : Bool)
    {nesting : Nesting Log (CalcFault Token) Kind Int α} (h : nesting.Stateless) (log : Log) :
    ((source.expression verbose >>= nesting.reduceInner).run.run log).1 = (do
      let expr ← source.parse
      ((nesting.fresh []).reduceInner expr).outcome) :=
  run_expression_bind source verbose (fun expr log => h.outcome_reduceInner [] log expr) log

theorem like_syntaxReduction (source : Source) (verbose : Bool) :
    Nesting.Like (fun tree texts => tree.map source.tokenText = texts) Eq (syntaxReduction verbose)
      (source.treeReduction verbose) where
  level? := rfl
  visit token := by
    rintro log _ rfl
    simp only [syntaxReduction, Source.treeReduction, reduction, visitOperand]
    cases token.rule with
    | num => exact .ok ⟨.some rfl, rfl⟩
    | expr => exact .ok ⟨.none, rfl⟩
    | _ => exact .error ⟨rfl, rfl⟩
  combine op a b v w ha hb := by
    rintro log _ rfl
    refine .ok ⟨?_, rfl⟩
    rw [← ha, ← hb]
    rfl
  observe _ s t hs := by
    rw [hs]
    rfl
  emptyInner := rfl
  emptyInput := rfl
  missingOperand := rfl
  excess := rfl

/-- If the values of one action are found from those of the other, then so is the result. -/
theorem map_fst_of_like {σ₁ σ₂ ε α β : Type} {R : σ₁ → σ₂ → Prop} {f : α → β} {m₁ : Act σ₁ ε α}
    {m₂ : Act σ₂ ε β} (h : Act.Like (fun a b => f a = b) R m₁ m₂) {s : σ₁} {t : σ₂} (hs : R s t) :
    (m₁.run.run s).1.map f = (m₂.run.run t).1 := by
  have hends := h s t hs
  revert hends
  generalize m₁.run.run s = end₁
  generalize m₂.run.run t = end₂
  intro hends
  cases hends with
  | ok hok => exact congrArg Except.ok hok.1
  | error he => exact congrArg Except.error he.1

/-- The tree of a source has the texts of the tokens in its tree of tokens. -/
theorem run_tree_eq_map (source : Source) (verbose : Bool) (log : Log) :
    ((source.tree verbose).run.run log).1 =
      ((source.syntaxTree verbose).run.run log).1.map (Tree.map source.tokenText) := by
  rw [Source.tree, Source.syntaxTree, run_bind, run_bind]
  rcases (source.expression verbose).run.run log with ⟨result, log'⟩
  cases result with
  | error fault => rfl
  | ok expr =>
    exact (map_fst_of_like ((like_syntaxReduction source verbose).reduceInner expr) rfl).symm

/-! ### What is computed from the tree -/

section

variable {α : Type} {nesting : Nesting Unit (CalcFault Token) Kind Int α}
  {onLeaf : Token → Except (CalcFault Token) α} {onNode : Token → α → α → Except (CalcFault Token) α}

/-- A way to reduce pairs that tells operators by the table, and computes the value of a number and
that of a node. -/
structure Computes (nesting : Nesting Unit (CalcFault Token) Kind Int α)
    (onLeaf : Token → Except (CalcFault Token) α)
    (onNode : Token → α → α → Except (CalcFault Token) α) : Prop where
  silent : nesting.Silent
  level? : ∀ pair, nesting.level? pair = .ok (Kind.table.find? pair.rule)
  num : ∀ token, token.rule = .num → (nesting.visit token).outcome = (onLeaf token).map some
  expr : ∀ pair, pair.rule = .expr → (nesting.visit pair).outcome = .ok none
  combine : ∀ left op right, (nesting.combine left op right).outcome = onNode op left right

/-- What a chain is reduced to is computed from its tree, if that is so for its operands. -/
theorem Computes.reduceInner_of (h : Computes nesting onLeaf onNode) {pair : Token}
    {tree : Tree Token}
    (htree : (((syntaxReduction verbose).fresh []).reduceInner pair).outcome = .ok tree)
    (hinner : ∀ inner ∈ pair.inner, ∀ tree,
      (((syntaxReduction verbose).fresh []).reduce inner).outcome = .ok tree →
        (nesting.reduce inner).outcome = tree.compute onLeaf onNode) :
    (nesting.reduceInner pair).outcome = tree.compute onLeaf onNode := by
  obtain ⟨first, links, heq, hlevels, hfirst, hlinks, rfl⟩ :=
    ((syntaxReduction_simple verbose).reduceInner_eq_ok_iff pair tree).1 htree
  rw [heq] at hinner
  have hoperands : ∀ link ∈ links, (nesting.reduce link.operand.1).outcome =
      link.operand.2.compute onLeaf onNode := by
    intro link hlink
    refine hinner _ ?_ _ (hlinks link hlink)
    exact List.mem_cons_of_mem _ (operand_mem_linkItems (List.mem_map_of_mem hlink))
  have hcompute : Tree.compute onLeaf onNode
        (bracket (fun left link right => .node link.op left right) first.2
          (links.map (Link.map id Prod.snd))) =
      bracket (inTurn fun left op right => onNode op left right)
        (first.2.compute onLeaf onNode)
        ((links.map (Link.map id Prod.snd)).map (Link.map id (Tree.compute onLeaf onNode))) :=
    map_bracket _ id _ (fun _ _ _ => rfl) _ _
  refine (h.silent.outcome_reduceInner h.level? heq (List.forall_mem_map.2 hlevels)).trans
    (Eq.trans ?_ hcompute.symm)
  rw [hinner first.1 List.mem_cons_self first.2 hfirst, List.map_map, List.map_map]
  simp only [h.combine]
  refine congrArg (bracket _ _) (List.map_congr_left fun link hlink => ?_)
  simp only [Function.comp_apply, Link.map, hoperands link hlink]

/-- What a pair is reduced to is computed from its tree. -/
theorem Computes.reduce (h : Computes nesting onLeaf onNode) {pair : Token} {tree : Tree Token}
    (htree : (((syntaxReduction verbose).fresh []).reduce pair).outcome = .ok tree) :
    (nesting.reduce pair).outcome = tree.compute onLeaf onNode := by
  induction pair using Pair.induction generalizing tree with
  | step pair ih =>
    rw [Nesting.reduce_eq, outcome_bind]
    rcases reduce_syntaxReduction_eq_ok htree with ⟨hrule, rfl⟩ | ⟨hrule, hchain⟩
    · rw [h.num pair hrule, Tree.compute]
      cases onLeaf pair <;> rfl
    · rw [h.expr pair hrule]
      exact h.reduceInner_of hchain fun inner hinner tree => ih inner hinner

end

theorem computes_reduction {α : Type} (verbose : Bool) (leaf : Token → CalcM α)
    (node : Token → α → α → Except (CalcFault Token) α) :
    Computes ((reduction verbose leaf node).fresh [])
      (fun token => ((leaf token).run.run []).1) node where
  silent _ _ := rfl
  level? _ := rfl
  num token hrule := by rw [outcome_visit_reduction, hrule]
  expr pair hrule := by rw [outcome_visit_reduction, hrule]
  combine left op right := outcome_combine_reduction verbose leaf node left right op

/-- What the expression of a source is reduced to is computed from its tree of tokens, if the lines
that have been written make no difference. -/
theorem run_reduction_of_syntaxTree {α : Type} {leaf : Token → CalcM α}
    {node : Token → α → α → Except (CalcFault Token) α} {log : Log} {tree : Tree Token}
    (h : (reduction verbose leaf node).Stateless)
    (htree : ((source.syntaxTree verbose).run.run log).1 = .ok tree) :
    ((source.expression verbose >>= (reduction verbose leaf node).reduceInner).run.run log).1 =
      tree.compute (fun token => ((leaf token).run.run []).1) node := by
  rw [Source.syntaxTree, run_reduction source verbose (syntaxReduction_stateless verbose)] at htree
  obtain ⟨expr, hparse, hreduce⟩ := bind_eq_ok.1 htree
  rw [run_reduction source verbose h, hparse]
  have hcomputes := computes_reduction verbose leaf node
  exact hcomputes.reduceInner_of hreduce fun inner _ tree => hcomputes.reduce

/-- The value of a source is computed from its tree of tokens. -/
theorem run_evaluate_of_syntaxTree {log : Log} {tree : Tree Token}
    (htree : ((source.syntaxTree verbose).run.run log).1 = .ok tree) :
    ((source.evaluate verbose).run.run log).1 =
      tree.compute (fun token => Number.parse (source.tokenText token)) Source.applyToken := by
  have hleaf : ∀ token, ((source.numberOf token).run.run []).1 =
      Number.parse (source.tokenText token) := by
    intro token
    rw [Source.numberOf]
    cases Number.parse (source.tokenText token) <;> rfl
  have hrun := run_reduction_of_syntaxTree (source.valueReduction_stateless verbose) htree
  simp only [hleaf] at hrun
  exact hrun

/-! ### The tokens of the tree -/

/-- The numbers and the operators of a tree in the order of the text: an operator stands between the
tokens of both sides. -/
inductive Yields : Tree Token → List Token → Prop
  | num {token} (h : token.rule = .num) : Yields (.leaf token) [token]
  | op {op o left right front back} (hop : op.rule = .op o) (hleft : Yields left front)
      (hright : Yields right back) : Yields (.node op left right) (front ++ op :: back)

/-- The tokens but for the parentheses. -/
def plainTokens (tokens : List Token) : List Token :=
  tokens.filter (·.rule.isPlain)

theorem plainTokens_append (front back : List Token) :
    plainTokens (front ++ back) = plainTokens front ++ plainTokens back :=
  List.filter_append front back

theorem plainTokens_cons_of_isPlain {token : Token} (h : token.rule.isPlain) (tokens : List Token) :
    plainTokens (token :: tokens) = token :: plainTokens tokens :=
  List.filter_cons_of_pos h

theorem plainTokens_cons_of_not {token : Token} (h : token.rule.isPlain = false)
    (tokens : List Token) : plainTokens (token :: tokens) = plainTokens tokens :=
  List.filter_cons_of_neg (by simp [h])

/-- The tree of a chain has the tokens of its operands, and the operators between them. -/
theorem yields_of_chain {first : Token × Tree Token}
    {links : List (Link Token (Token × Tree Token))} {tokens : List Token}
    (hlevels : ∀ link ∈ links, Kind.table.find? link.op.rule = some link.level)
    (hfirst : ∀ ts, Nests ts [first.1] → Yields first.2 (plainTokens ts))
    (hlinks : ∀ link ∈ links, ∀ ts, Nests ts [link.operand.1] →
      Yields link.operand.2 (plainTokens ts))
    (h : Nests tokens (first.1 :: linkItems (links.map (Link.map id Prod.fst)))) :
    Yields (bracket (fun left link right => .node link.op left right) first.2
      (links.map (Link.map id Prod.snd))) (plainTokens tokens) := by
  induction links using split_induction generalizing first tokens with
  | nil =>
    rw [List.map_nil, bracket_nil]
    exact hfirst tokens h
  | @split links before link after hsplit hparts ihBefore ihAfter =>
    have hmem : ∀ {other}, other ∈ before ∨ other = link ∨ other ∈ after → other ∈ links := by
      simp [hparts]
    have hlink := hmem (Or.inr (Or.inl rfl))
    obtain ⟨o, hop, -⟩ := find?_table_eq_some_iff.1 (hlevels link hlink)
    have hplain := isPlain_of_find? (hlevels link hlink)
    rw [hparts] at h
    obtain ⟨front, back, rfl, hfront, hback⟩ := h.exists_sides hplain
    rw [bracket_of_split _ (split?_lowest_map id Prod.snd hsplit), plainTokens_append,
      plainTokens_cons_of_isPlain hplain]
    refine .op hop (ihBefore ?_ hfirst ?_ hfront) (ihAfter ?_ (hlinks link hlink) ?_ hback)
    · exact fun other hother => hlevels other (hmem (Or.inl hother))
    · exact fun other hother => hlinks other (hmem (Or.inl hother))
    · exact fun other hother => hlevels other (hmem (Or.inr (Or.inr hother)))
    · exact fun other hother => hlinks other (hmem (Or.inr (Or.inr hother)))

theorem yields_of_reduceInner {pair : Token} {tree : Tree Token} {tokens : List Token}
    (htree : (((syntaxReduction verbose).fresh []).reduceInner pair).outcome = .ok tree)
    (h : Nests tokens pair.inner)
    (hinner : ∀ inner ∈ pair.inner, ∀ tree,
      (((syntaxReduction verbose).fresh []).reduce inner).outcome = .ok tree →
        ∀ ts, Nests ts [inner] → Yields tree (plainTokens ts)) :
    Yields tree (plainTokens tokens) := by
  obtain ⟨first, links, heq, hlevels, hfirst, hlinks, rfl⟩ :=
    ((syntaxReduction_simple verbose).reduceInner_eq_ok_iff pair tree).1 htree
  rw [heq] at h hinner
  refine yields_of_chain hlevels (hinner first.1 List.mem_cons_self first.2 hfirst)
    (fun link hlink => hinner _ ?_ _ (hlinks link hlink)) h
  exact List.mem_cons_of_mem _ (operand_mem_linkItems (List.mem_map_of_mem hlink))

theorem yields_of_reduce {pair : Token} {tree : Tree Token} {tokens : List Token}
    (htree : (((syntaxReduction verbose).fresh []).reduce pair).outcome = .ok tree)
    (h : Nests tokens [pair]) : Yields tree (plainTokens tokens) := by
  induction pair using Pair.induction generalizing tree tokens with
  | step pair ih =>
    rcases reduce_syntaxReduction_eq_ok htree with ⟨hrule, rfl⟩ | ⟨hrule, hchain⟩
    · have hplain : pair.rule.isPlain := by rw [hrule]; rfl
      obtain ⟨rest, rfl, hrest⟩ := h.of_plain hplain
      cases hrest
      rw [plainTokens_cons_of_isPlain hplain]
      exact .num hrule
    · obtain ⟨opening, inside, closing, rfl, hopening, hclosing, hinside⟩ := h.of_expr hrule
      rw [plainTokens_cons_of_not (by rw [hopening]; rfl), plainTokens_append,
        plainTokens_cons_of_not (by rw [hclosing]; rfl)]
      change Yields tree (plainTokens inside ++ [])
      rw [List.append_nil]
      exact yields_of_reduceInner hchain hinside fun inner hinner tree htree ts =>
        ih inner hinner htree

/-- The numbers and the operators of the tree of a source are the tokens of the source but for the
parentheses, in the same order. -/
theorem yields_of_syntaxTree {log : Log} {tree : Tree Token}
    (htree : ((source.syntaxTree verbose).run.run log).1 = .ok tree) :
    Yields tree (plainTokens (tokens source)) := by
  rw [Source.syntaxTree, run_reduction source verbose (syntaxReduction_stateless verbose)] at htree
  obtain ⟨expr, hparse, hreduce⟩ := bind_eq_ok.1 htree
  exact yields_of_reduceInner hreduce (nests_of_parse hparse) fun inner _ tree htree ts =>
    yields_of_reduce htree

end Precedence
