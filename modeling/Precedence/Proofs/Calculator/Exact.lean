import Mathlib
import Precedence.Proofs.Calculator.Digits

/-!
# Exact arithmetic

If the numbers of an expression are runs of digits, and there is no quotient in it and no power with a
negative exponent, then it is computed over the unbounded integers, and no float ever arises. The only
complaint is about a remainder by zero.

## Main definitions

- `IsRemainder` — what is left over of an integer that is divided by another one
- `Op.Exact`, `Source.Exact` — the exact value of an operator, and that of a tree
- `Tree.nodes` — the nodes of a tree in the order in which they are computed
- `Source.ModuloByZero` — a node that is a remainder by zero
- `Source.NaturalPowers` — the powers that are computed have no negative exponents
- `Source.Settles` — the exact value of a tree, or the complaint about its first remainder by zero

## Main statements

- `Source.Exact.unique` — a tree has one exact value at most
- `settles_node` — computing a node whose sides have exact values
- `settles_compute` — computing a tree
- `evaluate_exact` — the value of a source
-/

namespace Precedence

/-! ### Remainders -/

/-- The integer `r` is left over when `a` is divided by `b`: it is smaller than `b`, and is zero or has
the sign of `b`. -/
def IsRemainder (a b r : Int) : Prop :=
  (∃ q, a = b * q + r) ∧ |r| < |b| ∧ (r = 0 ∨ r.sign = b.sign)

/-- The remainder that is computed is one. -/
theorem isRemainder_fmod (a : Int) {b : Int} (hb : b ≠ 0) : IsRemainder a b (a.fmod b) := by
  refine ⟨⟨a.fdiv b, (Int.mul_fdiv_add_fmod a b).symm⟩, ?_⟩
  rcases lt_or_gt_of_ne hb with hneg | hpos
  · obtain ⟨-, hlt, hle⟩ := (Int.fdiv_fmod_unique' hneg).1 ⟨rfl, rfl⟩
    refine ⟨by rwa [abs_of_nonpos hle, abs_of_neg hneg, neg_lt_neg_iff], ?_⟩
    refine (eq_or_lt_of_le hle).imp id fun hr => ?_
    rw [Int.sign_eq_neg_one_of_neg hr, Int.sign_eq_neg_one_of_neg hneg]
  · obtain ⟨-, hle, hlt⟩ := (Int.fdiv_fmod_unique hpos).1 ⟨rfl, rfl⟩
    refine ⟨by rwa [abs_of_nonneg hle, abs_of_pos hpos], ?_⟩
    refine (eq_or_lt_of_le hle).imp Eq.symm fun hr => ?_
    rw [Int.sign_eq_one_of_pos hr, Int.sign_eq_one_of_pos hpos]

namespace IsRemainder

variable {a b r : Int}

theorem ne_zero (h : IsRemainder a b r) : b ≠ 0 := by
  rintro rfl
  have hlt := h.2.1
  rw [abs_zero] at hlt
  exact absurd hlt (not_lt.2 (abs_nonneg r))

/-- There is no other remainder. -/
theorem eq_fmod (h : IsRemainder a b r) : r = a.fmod b := by
  have hb := h.ne_zero
  obtain ⟨⟨q, hq⟩, hsmall, hsign⟩ := h
  rw [abs_lt] at hsmall
  rcases lt_or_gt_of_ne hb with hneg | hpos
  · have hle : r ≤ 0 := by
      rcases hsign with rfl | hsign
      · exact le_rfl
      · rw [Int.sign_eq_neg_one_of_neg hneg, Int.sign_eq_neg_one_iff_neg] at hsign
        exact hsign.le
    rw [abs_of_neg hneg] at hsmall
    exact ((Int.fdiv_fmod_unique' hneg).2 ⟨(add_comm r _).trans hq.symm, by omega, hle⟩).2.symm
  · have hle : 0 ≤ r := by
      rcases hsign with rfl | hsign
      · exact le_rfl
      · rw [Int.sign_eq_one_of_pos hpos, Int.sign_eq_one_iff_pos] at hsign
        exact hsign.le
    rw [abs_of_pos hpos] at hsmall
    exact ((Int.fdiv_fmod_unique hpos).2 ⟨(add_comm r _).trans hq.symm, hle, hsmall.2⟩).2.symm

end IsRemainder

/-! ### Exact values -/

/-- The exact value of an operator with two integers. There is none of a quotient. -/
inductive Op.Exact : Op → Int → Int → Int → Prop
  | plus (a b) : Op.Exact .plus a b (a + b)
  | minus (a b) : Op.Exact .minus a b (a - b)
  | times (a b) : Op.Exact .times a b (a * b)
  | modulo {a b r} (h : IsRemainder a b r) : Op.Exact .modulo a b r
  | power (a) (n : Nat) : Op.Exact .power a n (a ^ n)

/-- The exact value of a tree over the unbounded integers. -/
inductive Source.Exact (source : Source) : Tree Token → Int → Prop
  | num {token} (h : token.rule = .num) :
      source.Exact (.leaf token) (decimalValue (source.tokenText token).toList)
  | op {op o left right a b c} (hop : op.rule = .op o) (hleft : source.Exact left a)
      (hright : source.Exact right b) (h : o.Exact a b c) : source.Exact (.node op left right) c

theorem Op.Exact.unique {o : Op} {a b c d : Int} (hc : o.Exact a b c) (hd : o.Exact a b d) :
    c = d := by
  cases hc with
  | plus | minus | times => cases hd; rfl
  | modulo hr =>
    cases hd with
    | modulo hs => exact hr.eq_fmod.trans hs.eq_fmod.symm
  | power _ n =>
    generalize hb : (n : Int) = b at hd
    cases hd with
    | power _ m =>
      obtain rfl : n = m := Int.natCast_inj.1 hb
      rfl

theorem Source.Exact.unique {source : Source} {tree : Tree Token} {a b : Int}
    (ha : source.Exact tree a) (hb : source.Exact tree b) : a = b := by
  induction ha generalizing b with
  | num _ =>
    cases hb
    rfl
  | op hop _ _ hc ihLeft ihRight =>
    cases hb with
    | op hop' hleft hright hd =>
      obtain rfl := Kind.op.inj (hop.symm.trans hop')
      rw [← ihLeft hleft, ← ihRight hright] at hd
      exact hc.unique hd

/-- What an operator computes for two integers. -/
theorem Op.exists_apply_int {o : Op} {a b : Int} (hdivide : o ≠ .divide)
    (hmodulo : o = .modulo → b ≠ 0) (hpower : o = .power → 0 ≤ b) :
    ∃ c, o.apply (.int a) (.int b) = .ok (.int c) ∧ o.Exact a b c := by
  cases o with
  | plus => exact ⟨a + b, rfl, .plus a b⟩
  | minus => exact ⟨a - b, rfl, .minus a b⟩
  | times => exact ⟨a * b, rfl, .times a b⟩
  | divide => exact absurd rfl hdivide
  | modulo =>
    have hb := hmodulo rfl
    have hzero : (Number.int b).isZero = false := by
      rw [Number.isZero, beq_eq_false_iff_ne]
      exact hb
    refine ⟨a.fmod b, ?_, .modulo (isRemainder_fmod a hb)⟩
    rw [Op.apply, Number.mod, hzero]
    rfl
  | power =>
    obtain ⟨n, rfl⟩ := Int.eq_ofNat_of_zero_le (hpower rfl)
    refine ⟨a ^ n, ?_, .power a n⟩
    change Except.ok (Number.int (Number.intPow a n)) = _
    rw [Number.intPow_eq]
    rfl

/-! ### Computing a tree -/

/-- The nodes of a tree in the order in which they are computed: those of the left side, those of the
right side, and the node between them. -/
def Tree.nodes {α : Type} : Tree α → List (Tree α)
  | .leaf _ => []
  | .node op left right => left.nodes ++ (right.nodes ++ [.node op left right])

section

variable {α : Type} {op : α} {left right node : Tree α} {before after : List (Tree α)}

/-- A node of the left side stands among the nodes of the whole tree. -/
theorem Tree.nodes_of_left (h : left.nodes = before ++ node :: after) :
    (Tree.node op left right).nodes =
      before ++ node :: (after ++ (right.nodes ++ [.node op left right])) := by
  rw [Tree.nodes, h, List.append_assoc, List.cons_append]

/-- A node of the right side stands after all nodes of the left side. -/
theorem Tree.nodes_of_right (h : right.nodes = before ++ node :: after) :
    (Tree.node op left right).nodes =
      (left.nodes ++ before) ++ node :: (after ++ [.node op left right]) := by
  rw [Tree.nodes, h, List.append_assoc, List.append_assoc, List.cons_append]

end

namespace Source

variable (source : Source)

/-- A node that is a remainder, and whose right side has the value zero. -/
def ModuloByZero : Tree Token → Prop
  | .leaf _ => False
  | .node op _ right => op.rule = .op .modulo ∧ source.Exact right 0

/-- No power that is reached has a negative exponent: none but those after a remainder by zero. -/
def NaturalPowers (tree : Tree Token) : Prop :=
  ∀ before op left right after n, tree.nodes = before ++ .node op left right :: after →
    (∀ node ∈ before, ¬ source.ModuloByZero node) → op.rule = .op .power →
      source.Exact right n → 0 ≤ n

/-- What a tree comes to: its exact value if there is no remainder by zero, and otherwise a complaint
about the operator of the first one. -/
inductive Settles (tree : Tree Token) : Except (CalcFault Token) Number → Prop
  | value {v} (hexact : source.Exact tree v) (hfine : ∀ node ∈ tree.nodes, ¬ source.ModuloByZero node) :
      Settles tree (.ok (.int v))
  | failure {before op left right after}
      (hnodes : tree.nodes = before ++ .node op left right :: after)
      (hbefore : ∀ node ∈ before, ¬ source.ModuloByZero node)
      (hzero : source.ModuloByZero (.node op left right)) :
      Settles tree (.error (.arithmetic .moduloByZero op))

variable {source} {op : Token} {left right : Tree Token}

theorem naturalPowers_left (h : source.NaturalPowers (.node op left right)) :
    source.NaturalPowers left := by
  intro before op' left' right' after n hnodes
  exact h before op' left' right' _ n (Tree.nodes_of_left hnodes)

theorem naturalPowers_right (h : source.NaturalPowers (.node op left right))
    (hleft : ∀ node ∈ left.nodes, ¬ source.ModuloByZero node) : source.NaturalPowers right := by
  intro before op' left' right' after n hnodes hbefore
  exact h _ op' left' right' _ n (Tree.nodes_of_right hnodes)
    (List.forall_mem_append.2 ⟨hleft, hbefore⟩)

/-- Computing a node whose sides have exact values. -/
theorem settles_node {o : Op} {a b : Int} (hop : op.rule = .op o) (hdivide : o ≠ .divide)
    (hpowers : source.NaturalPowers (.node op left right)) (hleft : source.Exact left a)
    (hright : source.Exact right b) (hfineLeft : ∀ node ∈ left.nodes, ¬ source.ModuloByZero node)
    (hfineRight : ∀ node ∈ right.nodes, ¬ source.ModuloByZero node) :
    source.Settles (.node op left right) (applyToken op (.int a) (.int b)) := by
  have hfine : ∀ node ∈ left.nodes ++ right.nodes, ¬ source.ModuloByZero node :=
    List.forall_mem_append.2 ⟨hfineLeft, hfineRight⟩
  have hnodes : (Tree.node op left right).nodes =
      (left.nodes ++ right.nodes) ++ [.node op left right] := by
    rw [Tree.nodes, List.append_assoc]
  rw [applyToken_eq hop]
  by_cases hzero : source.ModuloByZero (.node op left right)
  · obtain rfl : o = .modulo := Kind.op.inj (hop.symm.trans hzero.1)
    obtain rfl : b = 0 := hright.unique hzero.2
    exact .failure hnodes hfine hzero
  · obtain ⟨c, happly, hc⟩ := Op.exists_apply_int (a := a) (b := b) hdivide
      (fun ho hb => hzero ⟨by rw [hop, ho], by rwa [← hb]⟩)
      (fun ho => hpowers _ op left right [] b hnodes hfine (by rw [hop, ho]) hright)
    rw [happly]
    refine .value (.op hop hleft hright hc) ?_
    rw [hnodes]
    exact List.forall_mem_append.2 ⟨hfine, by simpa using hzero⟩

/-- Computing a tree whose numbers are runs of digits that are not too long, and which has no
quotients. -/
theorem settles_compute {tree : Tree Token} {tokens : List Token} (h : Yields tree tokens)
    (hdigits : ∀ token ∈ tokens, token.rule = .num → IsDigits (source.tokenText token).toList ∧
      (source.tokenText token).toList.length ≤ maxIntegerDigits)
    (hdivide : ∀ token ∈ tokens, token.rule ≠ .op .divide) (hpowers : source.NaturalPowers tree) :
    source.Settles tree
      (tree.compute (fun token => Number.parse (source.tokenText token)) applyToken) := by
  induction h with
  | @num token hrule =>
    obtain ⟨htext, hlength⟩ := hdigits token List.mem_cons_self hrule
    have hparse := parse_of_isDigits htext
    rw [if_pos hlength, String.ofList_toList] at hparse
    rw [Tree.compute, hparse]
    exact .value (.num hrule) (by simp [Tree.nodes])
  | @op op o left right front back hop _ _ ihLeft ihRight =>
    obtain ⟨hdigitsLeft, hdigitsRight⟩ := List.forall_mem_append.1 hdigits
    obtain ⟨hdivideLeft, hdivideRight⟩ := List.forall_mem_append.1 hdivide
    obtain ⟨hdivideOp, hdivideRight⟩ := List.forall_mem_cons.1 hdivideRight
    have hleft := ihLeft hdigitsLeft hdivideLeft (naturalPowers_left hpowers)
    rw [Tree.compute]
    generalize left.compute _ _ = resultLeft at hleft
    cases hleft with
    | failure hnodes hbefore hzero =>
      exact .failure (Tree.nodes_of_left hnodes) hbefore hzero
    | value ha hfineLeft =>
      have hright := ihRight (List.forall_mem_cons.1 hdigitsRight).2 hdivideRight
        (naturalPowers_right hpowers hfineLeft)
      generalize right.compute _ _ = resultRight at hright
      cases hright with
      | failure hnodes hbefore hzero =>
        exact .failure (Tree.nodes_of_right hnodes)
          (List.forall_mem_append.2 ⟨hfineLeft, hbefore⟩) hzero
      | value hb hfineRight =>
        exact settles_node hop (fun ho => hdivideOp (by rw [hop, ho])) hpowers ha hb hfineLeft
          hfineRight

/-! ### The value of a source -/

variable {verbose : Bool} {log : Log}

/-- The characters of a token are those of the text. -/
theorem mem_text_of_mem_tokenText {token : Token} {c : Char}
    (h : c ∈ (source.tokenText token).toList) : c ∈ source.text.toList := by
  rw [tokenText, String.toList_ofList, slice, extract, Array.toList_extract,
    List.extract_eq_take_drop] at h
  exact List.mem_of_mem_drop (List.mem_of_mem_take h)

/-- A text without the character of quotients has no tokens of quotients. -/
theorem rule_ne_divide_of_mem_tokens (h : '/' ∉ source.text.toList) {token : Token}
    (htoken : token ∈ tokens source) : token.rule ≠ .op .divide := by
  intro hrule
  have htext := (lexed_of_mem_tokens htoken).op .divide hrule
  have hslash : '/' ∈ (source.tokenText token).toList := by
    rw [htext, String.toList_ofList]
    exact List.mem_singleton_self _
  exact h (mem_text_of_mem_tokenText hslash)

end Source

/-- The value of a source that has a tree, whose numbers are runs of digits that are not too long, and
in whose text there are no quotients. Unless a power with a negative exponent is reached, it is the
exact value of the tree, an integer, or a complaint about the first remainder by zero. -/
theorem evaluate_exact (source : Source) (verbose : Bool) (log : Log) {t : Tree String}
    (htree : ((source.tree verbose).run.run log).1 = .ok t)
    (hdigits : ∀ token ∈ tokens source, token.rule = .num →
      IsDigits (source.tokenText token).toList ∧
        (source.tokenText token).toList.length ≤ maxIntegerDigits)
    (hdivide : '/' ∉ source.text.toList) :
    ∃ tree, ((source.syntaxTree verbose).run.run log).1 = .ok tree ∧
      t = tree.map source.tokenText ∧ Yields tree (plainTokens (tokens source)) ∧
      (source.NaturalPowers tree →
        (∃ v, ((source.evaluate verbose).run.run log).1 = .ok (.int v) ∧
          (∀ w, source.Exact tree w ↔ w = v) ∧ ∀ node ∈ tree.nodes, ¬ source.ModuloByZero node) ∨
        ∃ before op left right after fault, tree.nodes = before ++ .node op left right :: after ∧
          (∀ node ∈ before, ¬ source.ModuloByZero node) ∧
          source.ModuloByZero (.node op left right) ∧
          ((source.evaluate verbose).run.run log).1 = .error fault ∧
          fault.className = "CalcError" ∧ fault.reason = "modulo by zero" ∧
          fault.about? = some op) := by
  rw [run_tree_eq_map] at htree
  cases hmade : ((source.syntaxTree verbose).run.run log).1 with
  | error fault =>
    rw [hmade] at htree
    cases htree
  | ok tree =>
    rw [hmade] at htree
    have hyields := yields_of_syntaxTree hmade
    refine ⟨tree, rfl, (Except.ok.inj htree).symm, hyields, fun hpowers => ?_⟩
    have hmem : ∀ {token}, token ∈ plainTokens (tokens source) → token ∈ tokens source :=
      fun h => List.mem_of_mem_filter h
    have hsettles := Source.settles_compute hyields (fun token htoken => hdigits token (hmem htoken))
      (fun token htoken => Source.rule_ne_divide_of_mem_tokens hdivide (hmem htoken)) hpowers
    rw [← run_evaluate_of_syntaxTree hmade] at hsettles
    generalize ((source.evaluate verbose).run.run log).1 = result at hsettles
    cases hsettles with
    | @value v hexact hfine =>
      exact Or.inl ⟨v, rfl, fun w => ⟨fun hw => hw.unique hexact, fun hw => hw ▸ hexact⟩, hfine⟩
    | failure hnodes hbefore hzero =>
      exact Or.inr ⟨_, _, _, _, _, _, hnodes, hbefore, hzero, rfl, rfl, rfl, rfl⟩

/-- The complaint about a remainder by zero is about its operator. -/
theorem evaluate_exact_moduloByZero :
    let source := Source.ofString "" "7%0" 0
    ((source.tree false).run.run []).1 = .ok (.node "%" (.leaf "7") (.leaf "0")) ∧
      (∀ token ∈ tokens source, token.rule = .num →
        IsDigits (source.tokenText token).toList ∧
          (source.tokenText token).toList.length ≤ maxIntegerDigits) ∧
      '/' ∉ source.text.toList ∧
      ∃ fault, ((source.evaluate false).run.run []).1 = .error fault ∧
        fault.about? = some (.leaf (.op .modulo) 1 2) := by
  intro source
  have hmade : ((source.syntaxTree false).run.run []).1 =
      .ok (.node (.leaf (.op .modulo) 1 2) (.leaf (.leaf .num 0 1)) (.leaf (.leaf .num 2 3))) := by
    rfl
  have hseven : source.tokenText (.leaf .num 0 1) = String.ofList ['7'] := rfl
  have hpercent : source.tokenText (.leaf (.op .modulo) 1 2) = "%" := rfl
  have hzero : source.tokenText (.leaf .num 2 3) = String.ofList ['0'] := rfl
  have htree : ((source.tree false).run.run []).1 =
      .ok (.node "%" (.leaf "7") (.leaf "0")) := by
    rw [run_tree_eq_map, hmade, Except.map, Tree.map, Tree.map, Tree.map, hseven, hpercent, hzero]
  have htokens : tokens source =
      [.leaf .num 0 1, .leaf (.op .modulo) 1 2, .leaf .num 2 3] := rfl
  have hdivide : '/' ∉ source.text.toList := by decide +kernel
  generalize source = source at *
  have hdigit : ∀ c, isDigit c → IsDigits (String.ofList [c]).toList ∧
      (String.ofList [c]).toList.length ≤ maxIntegerDigits := by
    intro c hc
    rw [String.toList_ofList, List.length_singleton]
    exact ⟨isDigits_singleton hc, by decide⟩
  have hdigits : ∀ token ∈ tokens source, token.rule = .num →
      IsDigits (source.tokenText token).toList ∧
        (source.tokenText token).toList.length ≤ maxIntegerDigits := by
    rw [htokens]
    simp only [List.forall_mem_cons, hseven, hzero]
    exact ⟨fun _ => hdigit '7' (by decide), nofun, fun _ => hdigit '0' (by decide), nofun⟩
  refine ⟨htree, hdigits, hdivide, ?_⟩
  obtain ⟨tree, hmade', -, -, hresult⟩ := evaluate_exact source false [] htree hdigits hdivide
  obtain rfl := Except.ok.inj (hmade.symm.trans hmade')
  have hexact : source.Exact (.leaf (.leaf .num 2 3)) 0 := by
    have hvalue : decimalValue (source.tokenText (.leaf .num 2 3)).toList = 0 := by
      rw [hzero, String.toList_ofList]
      decide
    have hnum : source.Exact (.leaf (.leaf .num 2 3)) _ := .num rfl
    rwa [hvalue] at hnum
  -- The remainder is the only node.
  have hsingle : ∀ {T node : Tree Token} {before after : List (Tree Token)},
      [T] = before ++ node :: after → T = node := by
    intro T node before after hnodes
    have hmem : node ∈ [T] := by
      rw [hnodes]
      exact List.mem_append_right before List.mem_cons_self
    exact (List.mem_singleton.1 hmem).symm
  have hpowers : source.NaturalPowers (.node (.leaf (.op .modulo) 1 2) (.leaf (.leaf .num 0 1))
      (.leaf (.leaf .num 2 3))) := by
    intro before op left right after n hnodes _ hop
    cases hsingle hnodes
    cases hop
  rcases hresult hpowers with ⟨v, -, -, hfine⟩ | ⟨before, op, left, right, after, fault, hnodes, -, -,
    hvalue, -, -, habout⟩
  · exact absurd ⟨rfl, hexact⟩ (hfine _ (List.mem_singleton_self _))
  · cases hsingle hnodes
    exact ⟨fault, hvalue, habout⟩

end Precedence
