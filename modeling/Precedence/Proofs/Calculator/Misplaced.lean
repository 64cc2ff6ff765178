import Mathlib
import Precedence.Proofs.Calculator.Reduction
import Precedence.Proofs.Calculator.Unmatched

/-!
# Misplaced pairs

Looking for pairs out of place, from the left to the right of an expression and into every nested one,
gives a list of complaints. The tree of a source is refused with the first of them, whatever the
precedences of the operators; if there are none, then there is a tree.

## Main definitions

- `Token.misplaced` — the complaints about a pair that stands as an operand
- `misplacedAmong`, `misplacedAfter` — those about a list of pairs that begins with an operand, and
  about one that begins with an operator
- `Reports` — a result that is refused with the first of some complaints
- `Ascends` — complaints about pairs that stand one after the other

## Main statements

- `Reports.bracket` — a chain is refused with the first complaint about its operands
- `misplacedAfter_eq` — the complaints about what follows an operand are those about a chain and about
  what is left over
- `reports_reduce` — a nested pair is refused with the first complaint about it
- `ascends_misplaced` — the complaints about a pair come in the order of the text
- `tree_reports` — the tree of a source is refused with the first complaint about its expression
-/

namespace Precedence

/-! ### Complaints about pairs -/

mutual

/-- The complaints about a pair that stands as an operand. A number is in its place, and so is an
expression that holds some pairs, apart from those that are out of place among them. -/
def Token.misplaced : Token → List Complaint
  | .mk .num _ _ _ => []
  | .mk .expr start stop [] => [⟨"CalcError", "empty expression", .mk .expr start stop []⟩]
  | .mk .expr _ _ (first :: rest) => misplacedAmong (first :: rest)
  | pair => [⟨"CalcError", "expected a number or parenthesized expression", pair⟩]
termination_by structural pair => pair

/-- The complaints about pairs of which the first stands as an operand. -/
def misplacedAmong : List Token → List Complaint
  | [] => []
  | operand :: rest => operand.misplaced ++ misplacedAfter rest
termination_by structural pairs => pairs

/-- The complaints about pairs of which the first stands as an operator. An operator is in its place if
an operand follows. -/
def misplacedAfter : List Token → List Complaint
  | [] => []
  | op :: rest =>
    (match op.rule with
      | .op _ =>
        if rest.isEmpty then
          [⟨"MissingOperand", "infix operator must be followed by a primary expression", op⟩]
        else []
      | _ => [⟨"ExcessPair", "expected an operator", op⟩]) ++
    misplacedAmong rest
termination_by structural pairs => pairs

end

/-- A pair that is neither a number nor an expression is no operand. -/
theorem misplaced_of_rule {pair : Token} (hnum : pair.rule ≠ .num) (hexpr : pair.rule ≠ .expr) :
    pair.misplaced =
      [⟨"CalcError", "expected a number or parenthesized expression", pair⟩] := by
  obtain ⟨rule, start, stop, inner⟩ := pair
  cases rule with
  | num => exact absurd rfl hnum
  | expr => exact absurd rfl hexpr
  | _ => rfl

theorem misplaced_of_num {pair : Token} (h : pair.rule = .num) : pair.misplaced = [] := by
  obtain ⟨rule, start, stop, inner⟩ := pair
  obtain rfl : rule = .num := h
  rfl

theorem misplaced_of_expr {pair : Token} (h : pair.rule = .expr) :
    pair.misplaced =
      if pair.inner = [] then [⟨"CalcError", "empty expression", pair⟩]
      else misplacedAmong pair.inner := by
  obtain ⟨rule, start, stop, inner⟩ := pair
  obtain rfl : rule = .expr := h
  cases inner <;> rfl

/-- The complaints about what follows an operator, beginning with the operator. -/
def misplacedOperand : List Token → List Complaint
  | [] => []
  | [op] => [⟨"MissingOperand", "infix operator must be followed by a primary expression", op⟩]
  | _ :: item :: _ => item.misplaced

/-- The complaints about the pairs that follow a chain. -/
def misplacedLeft : List Token → List Complaint
  | [] => []
  | pair :: rest => ⟨"ExcessPair", "expected an operator", pair⟩ :: misplacedAmong rest

/-- The level that the table gives to a pair. -/
def levelOf (pair : Token) : Except (CalcFault Token) (Option Level) :=
  .ok (Kind.table.find? pair.rule)

theorem misplacedAfter_of_op {op : Token} {o : Op} (rest : List Token) (h : op.rule = .op o) :
    misplacedAfter (op :: rest) = misplacedOperand (op :: rest) ++ misplacedAfter rest.tail := by
  rw [misplacedAfter, h]
  cases rest with
  | nil => rfl
  | cons item rest => rfl

theorem misplacedAfter_of_rule {op : Token} (rest : List Token) (h : ∀ o, op.rule ≠ .op o) :
    misplacedAfter (op :: rest) = misplacedLeft (op :: rest) := by
  rw [misplacedAfter]
  cases hrule : op.rule with
  | op o => exact absurd hrule (h o)
  | _ => rfl

theorem misplacedAfter_cons {op : Token} {rest : List Token}
    (ih : misplacedAfter rest.tail =
      (upcoming levelOf id rest.tail).flatMap (fun link => misplacedOperand link.operand) ++
        misplacedLeft (rest.tail.drop (2 * (upcoming levelOf id rest.tail).length))) :
    misplacedAfter (op :: rest) =
      (upcoming levelOf id (op :: rest)).flatMap (fun link => misplacedOperand link.operand) ++
        misplacedLeft ((op :: rest).drop (2 * (upcoming levelOf id (op :: rest)).length)) := by
  by_cases hop : ∃ o, op.rule = .op o
  · obtain ⟨o, ho⟩ := hop
    have hlevel : levelOf op = .ok (some o.level) :=
      congrArg Except.ok (find?_table_eq_some_iff.2 ⟨o, ho, rfl⟩)
    rw [misplacedAfter_of_op rest ho, ih, upcoming_cons rest hlevel, List.flatMap_cons,
      List.length_cons, drop_two_mul_succ, List.append_assoc]
    rfl
  · have hlevel : ∀ level, levelOf op ≠ .ok (some level) := by
      intro level hlevel
      obtain ⟨o, ho, -⟩ := find?_table_eq_some_iff.1 (Except.ok.inj hlevel)
      exact hop ⟨o, ho⟩
    rw [misplacedAfter_of_rule rest (not_exists.1 hop), upcoming_eq_nil rest hlevel]
    rfl

/-- The complaints about what follows an operand are those about the operands of the chain that
begins there, and then those about what the chain leaves. -/
theorem misplacedAfter_eq (rest : List Token) :
    misplacedAfter rest =
      (upcoming levelOf id rest).flatMap (fun link => misplacedOperand link.operand) ++
        misplacedLeft (rest.drop (2 * (upcoming levelOf id rest).length)) := by
  induction rest using List.twoStepInduction with
  | nil => rfl
  | singleton op => exact misplacedAfter_cons rfl
  | cons_cons op item rest ih _ => exact misplacedAfter_cons ih

/-! ### Reports -/

/-- The result is refused with the first of the complaints; without complaints there is a value. -/
def Reports {α : Type} (result : Except (CalcFault Token) α) : List Complaint → Prop
  | [] => ∃ value, result = .ok value
  | first :: _ => Refuses result first

namespace Reports

variable {α γ : Type}

theorem ok (value : α) : Reports (.ok value) [] :=
  ⟨value, rfl⟩

/-- What goes on after a result is refused with the complaints about the result first. -/
theorem bind {result : Except (CalcFault Token) α} {f : α → Except (CalcFault Token) γ}
    {complaints more : List Complaint} (h : Reports result complaints)
    (hf : ∀ value, Reports (f value) more) : Reports (result >>= f) (complaints ++ more) := by
  cases complaints with
  | nil =>
    obtain ⟨value, rfl⟩ := h
    exact hf value
  | cons first complaints =>
    obtain ⟨fault, rfl, hsays⟩ := h
    exact ⟨fault, rfl, hsays⟩

/-- A chain whose values can always be combined is refused with the first complaint about its
operands, whatever their precedences. -/
theorem bracket {τ : Type} (node : α → τ → α → α) (result : γ → Except (CalcFault Token) α)
    (complaints : γ → List Complaint) {first : Except (CalcFault Token) α}
    {links : List (Link τ γ)} {before : List Complaint} (hfirst : Reports first before)
    (hlinks : ∀ link ∈ links, Reports (result link.operand) (complaints link.operand)) :
    Reports (bracket (inTurn fun left op right => .ok (node left op right)) first
        (links.map (Link.map id result)))
      (before ++ links.flatMap fun link => complaints link.operand) := by
  induction links using split_induction generalizing first before with
  | nil => simpa using hfirst
  | @split links front link back hsplit hparts ihFront ihBack =>
    rw [hparts, List.forall_mem_append, List.forall_mem_cons] at hlinks
    obtain ⟨hfront, hlink, hback⟩ := hlinks
    rw [bracket_of_split _ (split?_lowest_map id result hsplit)]
    -- The left side comes before the operand of the operator, and that before the rest of the right.
    have hboth := (ihFront hfirst hfront).bind fun left =>
      (ihBack hlink hback).bind fun right => Reports.ok (node left link.op right)
    rw [List.append_nil, List.append_assoc] at hboth
    rw [hparts, List.flatMap_append, List.flatMap_cons]
    exact hboth

end Reports

/-! ### The complaints about nested pairs -/

variable {source : Source} {verbose : Bool}

/-- What follows an operator is refused with the first complaint about it. -/
theorem reports_operandAfter {expr : Token} {items : List Token} (hne : items ≠ [])
    (hitems : ∀ pair ∈ items,
      Reports (((source.treeReduction verbose).fresh []).reduce pair).outcome
        (Token.misplaced pair)) :
    Reports (operandAfter (((source.treeReduction verbose).fresh []).innerGrammar expr)
      ((source.treeReduction verbose).fresh []).reduce items).outcome (misplacedOperand items) := by
  match items with
  | [] => exact absurd rfl hne
  | [op] => exact ⟨.missingOperand op, rfl, rfl, rfl, rfl⟩
  | op :: item :: rest =>
    rw [operandAfter, operandOf_of_readableHead _ _
      ((source.treeReduction_simple verbose).readableHead expr rest)]
    exact hitems item (by simp)

/-- The inner pairs of an expression are refused with the first complaint about them, if each of them
is with the first about itself. -/
theorem reports_reduceInner {expr : Token} (hrule : expr.rule = .expr)
    (hinner : ∀ pair ∈ expr.inner,
      Reports (((source.treeReduction verbose).fresh []).reduce pair).outcome
        (Token.misplaced pair)) :
    Reports (((source.treeReduction verbose).fresh []).reduceInner expr).outcome expr.misplaced := by
  have hsimple := source.treeReduction_simple verbose
  rw [hsimple.outcome_reduceInner_eq, misplaced_of_expr hrule]
  generalize expr.inner = pairs at hinner ⊢
  cases pairs with
  | nil =>
    rw [outline_nil]
    exact ⟨.emptyExpression expr, rfl, rfl, rfl, rfl⟩
  | cons first rest =>
    rw [if_neg (List.cons_ne_nil _ _), misplacedAmong, misplacedAfter_eq, ← List.append_assoc]
    refine Reports.bind ?chain fun value => ?left
    case chain =>
      rw [outline, outcome_bracket, operandOf_of_readableHead _ _ (hsimple.readableHead expr rest),
        chain, List.tail_cons, upcoming_id, List.map_map]
      refine Reports.bracket (fun left op right => .node (source.tokenText op) left right)
        (fun items => (operandAfter _ _ items).outcome) misplacedOperand
        (hinner first List.mem_cons_self) fun link hlink => ?_
      obtain ⟨-, ⟨after, hafter⟩, hmem⟩ := mem_upcoming_id hlink
      refine reports_operandAfter (by rw [hafter]; exact List.cons_ne_nil _ _) fun pair hpair => ?_
      exact hinner pair (List.mem_cons_of_mem first (hmem pair hpair))
    case left =>
      rw [leftover, List.tail_cons, chain, List.tail_cons, upcoming_id, List.length_map]
      show Reports (Nesting.check _ (rest.drop (2 * (upcoming levelOf id rest).length)) >>=
        fun _ => .ok value) _
      -- Whatever the chain leaves, a tree is found first, and then the first pair left is refused.
      cases rest.drop (2 * (upcoming levelOf id rest).length) with
      | nil => exact .ok value
      | cons pair more => exact ⟨.expectedOperator pair, rfl, rfl, rfl, rfl⟩

/-- A pair is refused with the first complaint about it, however deep it is nested. -/
theorem reports_reduce (source : Source) (verbose : Bool) (pair : Token) :
    Reports (((source.treeReduction verbose).fresh []).reduce pair).outcome pair.misplaced := by
  induction pair using Pair.induction with
  | step pair ih =>
    rw [Nesting.reduce_eq, outcome_bind, source.outcome_visit_treeReduction]
    by_cases hnum : pair.rule = .num
    · rw [hnum, misplaced_of_num hnum]
      exact .ok _
    · by_cases hexpr : pair.rule = .expr
      · rw [hexpr]
        exact reports_reduceInner hexpr ih
      · rw [misplaced_of_rule hnum hexpr]
        cases hrule : pair.rule with
        | num => exact absurd hrule hnum
        | expr => exact absurd hrule hexpr
        | _ => exact ⟨.expectedOperand pair, rfl, rfl, rfl, rfl⟩

/-! ### The order of complaints -/

/-- The complaints are about pairs of a range that start one after the other. -/
structure Ascends (first last : Int) (complaints : List Complaint) : Prop where
  sorted : complaints.Pairwise fun c d => c.about.start < d.about.start
  bounds : ∀ c ∈ complaints, first ≤ c.about.start ∧ c.about.start < last

namespace Ascends

variable {first middle last : Int} {complaints more : List Complaint}

theorem nil : Ascends first last [] :=
  ⟨.nil, nofun⟩

theorem single {c : Complaint} (hfirst : first ≤ c.about.start) (hlast : c.about.start < last) :
    Ascends first last [c] :=
  ⟨List.pairwise_singleton _ _, by simpa using ⟨hfirst, hlast⟩⟩

theorem append (h : Ascends first middle complaints) (hmore : Ascends middle last more)
    (hfirst : first ≤ middle) (hlast : middle ≤ last) :
    Ascends first last (complaints ++ more) := by
  constructor
  · rw [List.pairwise_append]
    refine ⟨h.sorted, hmore.sorted, fun c hc d hd => ?_⟩
    have hbefore := (h.bounds c hc).2
    have hafter := (hmore.bounds d hd).1
    omega
  · rw [List.forall_mem_append]
    refine ⟨fun c hc => ?_, fun d hd => ?_⟩
    · have hbounds := h.bounds c hc
      omega
    · have hbounds := hmore.bounds d hd
      omega

theorem mono {first' last' : Int} (h : Ascends first last complaints) (hfirst : first' ≤ first)
    (hlast : last ≤ last') : Ascends first' last' complaints := by
  refine ⟨h.sorted, fun c hc => ?_⟩
  have hbounds := h.bounds c hc
  omega

end Ascends

/-- The complaints about pairs that stand one after the other do so too, in whichever place the first
of the pairs stands. -/
theorem ascends_misplacedAmong {first last : Int} {pairs : List Token} (h : Laid first last pairs)
    (hpairs : ∀ pair ∈ pairs, Ascends pair.start pair.stop (Token.misplaced pair)) :
    Ascends first last (misplacedAmong pairs) ∧ Ascends first last (misplacedAfter pairs) := by
  induction pairs generalizing first with
  | nil => exact ⟨.nil, .nil⟩
  | cons pair rest ih =>
    obtain ⟨hfirst, hlt, hrest⟩ := h.of_cons
    have hlast := hrest.le
    obtain ⟨hpair, hpairs⟩ := List.forall_mem_cons.1 hpairs
    obtain ⟨hamong, hafter⟩ := ih hrest hpairs
    constructor
    · rw [misplacedAmong]
      exact (hpair.mono hfirst le_rfl).append hafter (by omega) hlast
    · rw [misplacedAfter]
      -- What is said of an operator itself is about its start, and thus before all that follows.
      refine Ascends.append ?_ hamong (by omega) hlast
      cases pair.rule with
      | op o =>
        dsimp only
        split
        · exact .single hfirst hlt
        · exact .nil
      | _ => exact .single hfirst hlt

/-- The complaints about a pair come in the order of the text, and none from outside of the pair. -/
theorem ascends_misplaced (pair : Token) (hlt : pair.start < pair.stop)
    (hlaid : Laid pair.start pair.stop pair.inner) :
    Ascends pair.start pair.stop pair.misplaced := by
  induction pair using Pair.induction with
  | step pair ih =>
    by_cases hnum : pair.rule = .num
    · rw [misplaced_of_num hnum]
      exact .nil
    · by_cases hexpr : pair.rule = .expr
      · rw [misplaced_of_expr hexpr]
        split
        · exact .single le_rfl hlt
        · refine (ascends_misplacedAmong hlaid fun inner hinner => ?_).1
          exact ih inner hinner (hlaid.bounds inner hinner).2.1 (hlaid.inner inner hinner)
      · rw [misplaced_of_rule hnum hexpr]
        exact .single le_rfl hlt

/-- The tree of a source is refused with the first complaint about its expression, and found if there
are none. The complaints come in the order of the text. -/
theorem tree_reports (source : Source) (verbose : Bool) (log : Log) {expr : Token}
    (h : ((source.expression verbose).run.run log).1 = .ok expr) :
    Reports ((source.tree verbose).run.run log).1 expr.misplaced ∧
      expr.misplaced.Pairwise fun c d => c.about.start < d.about.start := by
  rw [run_expression] at h
  have hrule := rule_of_parse h
  constructor
  · rw [Source.run_tree, h]
    exact reports_reduceInner hrule fun pair _ => reports_reduce source verbose pair
  · have hlaid := laid_of_parse h
    rw [misplaced_of_expr hrule]
    split
    · exact List.pairwise_singleton _ _
    · refine (ascends_misplacedAmong hlaid fun pair hpair => ?_).1.sorted
      exact ascends_misplaced pair (hlaid.bounds pair hpair).2.1 (hlaid.inner pair hpair)

/-- The operator without an operand is complained about before the empty parentheses, even though the
operator before it binds tighter. -/
theorem tree_reports_nested :
    (((Source.ofString "" "2*(3+)-()" 0).expression false).run.run []).1 =
        .ok (.mk .expr 0 9
          [.leaf .num 0 1, .leaf (.op .times) 1 2,
            .mk .expr 2 6 [.leaf .num 3 4, .leaf (.op .plus) 4 5],
            .leaf (.op .minus) 6 7, .mk .expr 7 9 []]) ∧
      Refuses (((Source.ofString "" "2*(3+)-()" 0).tree false).run.run []).1
        ⟨"MissingOperand", "infix operator must be followed by a primary expression",
          .leaf (.op .plus) 4 5⟩ := by
  have hparse : (((Source.ofString "" "2*(3+)-()" 0).expression false).run.run []).1 =
      .ok (.mk .expr 0 9
        [.leaf .num 0 1, .leaf (.op .times) 1 2,
          .mk .expr 2 6 [.leaf .num 3 4, .leaf (.op .plus) 4 5],
          .leaf (.op .minus) 6 7, .mk .expr 7 9 []]) := by
    rfl
  exact ⟨hparse, (tree_reports _ false [] hparse).1⟩

end Precedence
