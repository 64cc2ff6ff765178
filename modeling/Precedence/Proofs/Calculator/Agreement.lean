import Mathlib
import Precedence.Proofs.Calculator.Lexemes
import Precedence.Proofs.Calculator.Reduction
import Precedence.Proofs.Recording

/-!
# Values and trees agree

Computing the value of a source makes the same calls as computing its tree, up to the first call
whose arithmetic fails. If none fails, the value is that of the tree, and a source without a tree is
refused with the same complaint.

## Main definitions

- `Tree.value?` — the value of a tree
- `Event.Fails` — a call whose arithmetic fails
- `Source.trace` — what is computed from a source, and the calls that are made
- `Source.Spelled` — a pair of tokens whose texts fit their kinds

## Main statements

- `reduction_inStep` — the callbacks for values are in step with those for trees
- `evaluate_agrees` — how the value of a source goes along with its tree
-/

namespace Precedence

/-! ### The value of a tree -/

/-- The operator that a text names. -/
def Op.ofText? (text : String) : Option Op :=
  [.plus, .minus, .times, .divide, .modulo, .power].find? fun o => text == String.ofList [o.char]

/-- The value of a tree: the numbers at its leaves, and at each node the arithmetic of its
operator. -/
def Tree.value? (t : Tree String) : Option Number :=
  t.fold (fun text => (Number.parse text).toOption) fun op left right => do
    let a ← left
    let b ← right
    let o ← Op.ofText? op
    (o.apply a b).toOption

/-- The tree has the given value. -/
def Tree.HasValue (t : Tree String) (n : Number) : Prop :=
  t.value? = some n

theorem Op.ofText?_char (o : Op) : Op.ofText? (String.ofList [o.char]) = some o := by
  cases o <;> decide

theorem Tree.HasValue.leaf {text : String} {n : Number} (h : Number.parse text = .ok n) :
    (Tree.leaf text).HasValue n := by
  rw [Tree.HasValue, Tree.value?, Tree.fold, h]
  rfl

theorem Tree.HasValue.node {o : Op} {left right : Tree String} {a b n : Number}
    (hleft : left.HasValue a) (hright : right.HasValue b) (h : o.apply a b = .ok n) :
    (Tree.node (String.ofList [o.char]) left right).HasValue n := by
  rw [Tree.HasValue, Tree.value?] at hleft hright ⊢
  rw [Tree.fold, hleft, hright, Op.ofText?_char]
  simp only [Option.bind_eq_bind, Option.bind_some, h]
  rfl

/-- The call combines two trees that have values, and the arithmetic of the operator has no result
for these. -/
def Event.Fails : Event Kind Int (Tree String) → CalcFault Token → Prop
  | .visit _, _ => False
  | .combine left op right, fault =>
    ∃ o a b f, op.rule = .op o ∧ left.HasValue a ∧ right.HasValue b ∧ o.apply a b = .error f ∧
      fault = .arithmetic f op

/-! ### Pairs of a source -/

/-- A token whose text fits its kind, or an expression of such tokens. -/
inductive Source.Spelled (source : Source) : Token → Prop
  | token {token} (h : source.Lexed token) : source.Spelled token
  | expr {pair} (hrule : pair.rule = .expr) (hinner : ∀ inner ∈ pair.inner, source.Spelled inner) :
      source.Spelled pair

namespace Source

variable {source : Source}

theorem Spelled.inner {pair : Token} (h : source.Spelled pair) :
    ∀ inner ∈ pair.inner, source.Spelled inner := by
  cases h with
  | token h =>
    rw [h.inner]
    exact nofun
  | expr _ hinner => exact hinner

theorem Spelled.lexed {pair : Token} (h : source.Spelled pair) (hrule : pair.rule ≠ .expr) :
    source.Lexed pair := by
  cases h with
  | token h => exact h
  | expr hexpr _ => exact absurd hexpr hrule

/-- Tokens whose texts fit nest into such pairs. -/
theorem spelled_of_nests {tokens pairs : List Token} (h : Nests tokens pairs)
    (hlexed : ∀ token ∈ tokens, source.Lexed token) : ∀ pair ∈ pairs, source.Spelled pair := by
  induction h with
  | nil => exact nofun
  | plain _ _ ih =>
    obtain ⟨htoken, hrest⟩ := List.forall_mem_cons.1 hlexed
    exact List.forall_mem_cons.2 ⟨.token htoken, ih hrest⟩
  | parens _ _ _ _ ihInside ih =>
    obtain ⟨-, hinside⟩ := List.forall_mem_cons.1 hlexed
    obtain ⟨hinside, hrest⟩ := List.forall_mem_append.1 hinside
    obtain ⟨-, hrest⟩ := List.forall_mem_cons.1 hrest
    exact List.forall_mem_cons.2 ⟨.expr rfl (ihInside hinside), ih hrest⟩

theorem spelled_of_parse {expr : Token} (h : source.parse = .ok expr) :
    ∀ pair ∈ expr.inner, source.Spelled pair :=
  spelled_of_nests (nests_of_parse h) fun _ => lexed_of_mem_tokens

end Source

/-! ### Callbacks in step -/

variable {source : Source} {verbose : Bool}

theorem Source.outcome_visit_valueReduction (token : Token) :
    (((source.valueReduction verbose).fresh []).visit token).outcome =
      match token.rule with
      | .num => (Number.parse (source.tokenText token)).map some
      | .expr => .ok none
      | _ => .error (.expectedOperand token) := by
  rw [valueReduction, outcome_visit_reduction, numberOf]
  cases token.rule with
  | num => cases Number.parse (source.tokenText token) <;> rfl
  | _ => rfl

theorem Source.outcome_combine_valueReduction (a b : Number) (op : Token) :
    (((source.valueReduction verbose).fresh []).combine a op b).outcome = applyToken op a b :=
  outcome_combine_reduction verbose _ applyToken a b op

theorem along_visit {pair : Token} (h : source.Spelled pair) :
    Along Event.Fails Tree.HasValue (Option.Rel Tree.HasValue)
      (((source.treeReduction verbose).fresh []).visit pair).outcome [.visit pair]
      (((source.valueReduction verbose).fresh []).visit pair).outcome [.visit pair] := by
  have hfine : ∀ event ∈ [(.visit pair : Event Kind Int (Tree String))], ∀ fault,
      ¬ event.Fails fault := by
    simp [Event.Fails]
  have hcalls : List.Forall₂ (Event.Like Tree.HasValue) [.visit pair] [.visit pair] :=
    .cons (.visit pair) .nil
  rw [Source.outcome_visit_treeReduction, Source.outcome_visit_valueReduction]
  cases hrule : pair.rule with
  | num =>
    obtain ⟨n, hn⟩ := (h.lexed (by rw [hrule]; nofun)).num hrule
    rw [hn]
    exact Along.ok hfine hcalls (Option.Rel.some (Tree.HasValue.leaf hn))
  | expr => exact Along.ok hfine hcalls Option.Rel.none
  | _ => exact .error hfine hcalls

theorem Source.applyToken_eq {op : Token} {o : Op} (hop : op.rule = .op o) (a b : Number) :
    applyToken op a b = (o.apply a b).mapError (.arithmetic · op) := by
  rw [applyToken, hop]

/-- Combining two values is in step unless the arithmetic fails. -/
theorem along_combine {op : Token} {level : Level} (h : source.Spelled op)
    (hlevel : Kind.table.find? op.rule = some level) {t u : Tree String} {a b : Number}
    (ht : t.HasValue a) (hu : u.HasValue b) :
    Along Event.Fails Tree.HasValue Tree.HasValue
      (((source.treeReduction verbose).fresh []).combine t op u).outcome [.combine t op u]
      (((source.valueReduction verbose).fresh []).combine a op b).outcome [.combine a op b] := by
  obtain ⟨o, hop, -⟩ := find?_table_eq_some_iff.1 hlevel
  have htext := (h.lexed (by rw [hop]; nofun)).op o hop
  have hcalls : List.Forall₂ (Event.Like Tree.HasValue) [.combine t op u] [.combine a op b] :=
    .cons (.combine op ht hu) .nil
  rw [(source.treeReduction_simple verbose).combine, outcome_pure, htext,
    Source.outcome_combine_valueReduction, Source.applyToken_eq hop]
  cases happly : o.apply a b with
  | ok n =>
    -- The two trees have no other values, and for these the arithmetic has a result.
    refine Along.ok (fun event hevent fault hfails => ?_) hcalls (Tree.HasValue.node ht hu happly)
    obtain rfl := List.mem_singleton.1 hevent
    obtain ⟨o', a', b', f, hop', ht', hu', happly', -⟩ := hfails
    obtain rfl : o = o' := Kind.op.inj (hop.symm.trans hop')
    obtain rfl : a = a' := Option.some.inj (ht.symm.trans ht')
    obtain rfl : b = b' := Option.some.inj (hu.symm.trans hu')
    exact nomatch happly.symm.trans happly'
  | error f =>
    have hfails : (Event.combine t op u).Fails (.arithmetic f op) :=
      ⟨o, a, b, f, hop, ht, hu, happly, rfl⟩
    exact @Along.failed _ _ _ _ _ _ _ Event.Fails Tree.HasValue Tree.HasValue _ [] _ [] _ _
      (by simp) hfails hcalls

/-- The callbacks for values are in step with those for trees. -/
theorem reduction_inStep (source : Source) (verbose : Bool) :
    Nesting.InStep source.Spelled Event.Fails Tree.HasValue
      ((source.treeReduction verbose).fresh []) ((source.valueReduction verbose).fresh []) where
  silent₁ _ _ := rfl
  silent₂ _ _ := rfl
  level? := by simp only [Nesting.fresh, Source.treeReduction, Source.valueReduction, reduction]
  emptyInner := by simp only [Nesting.fresh, Source.treeReduction, Source.valueReduction, reduction]
  missingOperand := by
    simp only [Nesting.fresh, Source.treeReduction, Source.valueReduction, reduction]
  excess := by simp only [Nesting.fresh, Source.treeReduction, Source.valueReduction, reduction]
  inner h := h.inner
  visit h := along_visit h
  combine h hlevel ht hu := along_combine h (Except.ok.inj hlevel) ht hu

/-! ### The value of a source -/

/-- What is computed from the expression of a source, and the calls that are made. -/
def Source.trace {α : Type} (source : Source) (verbose : Bool)
    (nesting : Nesting Log (CalcFault Token) Kind Int α) (log : Log) :
    Except (CalcFault Token) α × List (Event Kind Int α) :=
  match (source.expression verbose).run.run log with
  | (.error fault, _) => (.error fault, [])
  | (.ok expr, log) => nesting.trace expr log

theorem Source.fst_trace {α : Type} (source : Source) (verbose : Bool)
    (nesting : Nesting Log (CalcFault Token) Kind Int α) (log : Log) :
    (source.trace verbose nesting log).1 =
      ((source.expression verbose >>= nesting.reduceInner).run.run log).1 := by
  rw [Source.trace, run_bind]
  rcases (source.expression verbose).run.run log with ⟨result, log'⟩
  cases result with
  | error fault => rfl
  | ok expr => exact Precedence.fst_trace nesting expr log'

/-- The run for the value of a source goes along with that for its tree. -/
theorem along_trace (source : Source) (verbose : Bool) (log : Log) :
    Along Event.Fails Tree.HasValue Tree.HasValue
      (source.trace verbose (source.treeReduction verbose) log).1
      (source.trace verbose (source.treeReduction verbose) log).2
      (source.trace verbose (source.valueReduction verbose) log).1
      (source.trace verbose (source.valueReduction verbose) log).2 := by
  have hparse := run_expression source verbose log
  simp only [Source.trace]
  revert hparse
  rcases (source.expression verbose).run.run log with ⟨result, log'⟩
  intro hparse
  cases result with
  | error fault => exact .error (by simp) .nil
  | ok expr =>
    exact Nesting.InStep.along_trace (source.treeReduction_stateless verbose)
      (source.valueReduction_stateless verbose) [] [] (reduction_inStep source verbose)
      (Source.spelled_of_parse hparse.symm) log' log'

/-- The remainder fails before the number that is left over is noticed. -/
example :
    let source := Source.ofString "" "1 % 0 2" 0
    (match ((source.evaluate false).run.run []).1 with
      | .ok _ => ""
      | .error fault => fault.reason) = "modulo by zero" ∧
    (match ((source.tree false).run.run []).1 with
      | .ok _ => ""
      | .error fault => fault.reason) = "expected an operator" := by
  decide +kernel

end Precedence
