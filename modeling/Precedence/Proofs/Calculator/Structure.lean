import Mathlib
import Precedence.Proofs.Calculator.Complaints
import Precedence.Value

/-!
# The structure of expressions

The tree of a source is the one that the grammar gives to its tokens, and there is no tree just in
case the grammar gives none.

## Main definitions

- `Source.Reads` — the tree of a pair in a source
- `Covers` — tokens that nest into a chain of pairs that have trees

## Main statements

- `derives_of_chain` — the tree of a chain is derived if the trees of its operands are
- `covers_of_derives` — tokens that are derived nest into a chain with their tree
- `tree_derives` — a source has a tree just in case its tokens are derived
-/

namespace Precedence

variable {source : Source} {verbose : Bool}

/-- The pair has the given tree. -/
def Source.Reads (source : Source) (verbose : Bool) (pair : Token) (t : Tree String) : Prop :=
  (((source.treeReduction verbose).fresh []).reduce pair).outcome = .ok t

/-- The tree of a chain of trees. -/
def Source.bracketTree (source : Source) (first : Tree String)
    (links : List (Link Token (Tree String))) : Tree String :=
  bracket (fun left link right => .node (source.tokenText link.op) left right) first links

/-- A chain of pairs that have trees. -/
def Source.ReadsChain (source : Source) (verbose : Bool) (first : Token × Tree String)
    (links : List (Link Token (Token × Tree String))) : Prop :=
  (∀ link ∈ links, Kind.table.find? link.op.rule = some link.level) ∧
    source.Reads verbose first.1 first.2 ∧
    ∀ link ∈ links, source.Reads verbose link.operand.1 link.operand.2

/-- The operators of the table are plain tokens. -/
theorem isPlain_of_find? {kind : Kind} {level : Level} (h : Kind.table.find? kind = some level) :
    kind.isPlain := by
  obtain ⟨o, rfl, -⟩ := find?_table_eq_some_iff.1 h
  rfl

/-- The tokens of a chain are those of both sides of an operator in it, with the operator between
them. -/
theorem Nests.exists_sides {γ : Type} {first : Token × γ}
    {before after : List (Link Token (Token × γ))} {link : Link Token (Token × γ)}
    {tokens : List Token} (hplain : link.op.rule.isPlain)
    (h : Nests tokens
      (first.1 :: linkItems ((before ++ link :: after).map (Link.map id Prod.fst)))) :
    ∃ front back, tokens = front ++ link.op :: back ∧
      Nests front (first.1 :: linkItems (before.map (Link.map id Prod.fst))) ∧
      Nests back (link.operand.1 :: linkItems (after.map (Link.map id Prod.fst))) := by
  rw [List.map_append, List.map_cons, linkItems_append, linkItems_cons, ← List.cons_append] at h
  obtain ⟨front, rest, rfl, hfront, hrest⟩ := h.exists_append
  obtain ⟨back, rfl, hback⟩ := hrest.of_plain hplain
  exact ⟨front, back, rfl, hfront, hback⟩

theorem assoc_eq_of_find? {kind kind' : Kind} {level level' : Level}
    (h : Kind.table.find? kind = some level) (h' : Kind.table.find? kind' = some level')
    (hprec : level.prec = level'.prec) : level.assoc = level'.assoc := by
  obtain ⟨o, -, rfl⟩ := find?_table_eq_some_iff.1 h
  obtain ⟨o', -, rfl⟩ := find?_table_eq_some_iff.1 h'
  exact Op.assoc_eq hprec

theorem rank_sum_le {kind : Kind} {level : Level} (h : Kind.table.find? kind = some level) :
    Symbol.sum.rank ≤ level.prec := by
  obtain ⟨o, -, rfl⟩ := find?_table_eq_some_iff.1 h
  cases o <;> decide

/-! ### From chains to derivations -/

/-- The operators on the side that an operator of the lowest precedence groups to do not bind more
loosely than it does, and those on its other side bind more tightly. -/
theorem rank_sides_of_split {β : Type} {links before after : List (Link Token β)}
    {link : Link Token β} {o : Op}
    (hlevels : ∀ link ∈ links, Kind.table.find? link.op.rule = some link.level)
    (hsplit : split? (lowest links) links = some (before, link, after))
    (hlevel : o.level = link.level) :
    (∀ other ∈ before,
      (if o.level.assoc = .left then o.symbol else o.symbol.next).rank ≤ other.level.prec) ∧
    ∀ other ∈ after,
      (if o.level.assoc = .left then o.symbol.next else o.symbol).rank ≤ other.level.prec := by
  obtain ⟨hprec, hleft, hright⟩ := lowest_lt_of_split?
    (fun a ha b hb => assoc_eq_of_find? (hlevels a ha) (hlevels b hb)) hsplit
  have hparts := eq_of_split? hsplit
  have hlow : ∀ other ∈ links, o.level.prec ≤ other.level.prec := by
    intro other hother
    rw [hlevel, hprec]
    exact lowest_le hother
  rw [← hlevel] at hprec hleft hright
  cases hassoc : o.level.assoc with
  | left =>
    rw [if_pos rfl, if_pos rfl, Op.rank_symbol, Op.rank_symbol_next, hprec]
    refine ⟨fun other hother => ?_, hleft hassoc⟩
    rw [← hprec]
    exact hlow other (by simp [hparts, hother])
  | right =>
    rw [if_neg nofun, if_neg nofun, Op.rank_symbol, Op.rank_symbol_next, hprec]
    refine ⟨hright hassoc, fun other hother => ?_⟩
    rw [← hprec]
    exact hlow other (by simp [hparts, hother])

/-- The tokens of a chain are derived from every symbol that its operators do not bind more loosely
than, if the tokens of its operands are. -/
theorem derives_of_chain {first : Token × Tree String}
    {links : List (Link Token (Token × Tree String))} {tokens : List Token} {s : Symbol}
    (hlevels : ∀ link ∈ links, Kind.table.find? link.op.rule = some link.level)
    (hrank : ∀ link ∈ links, s.rank ≤ link.level.prec)
    (hfirst : ∀ ts, Nests ts [first.1] → Derives source.tokenText .atom ts first.2)
    (hlinks : ∀ link ∈ links, ∀ ts, Nests ts [link.operand.1] →
      Derives source.tokenText .atom ts link.operand.2)
    (h : Nests tokens (first.1 :: linkItems (links.map (Link.map id Prod.fst)))) :
    Derives source.tokenText s tokens
      (source.bracketTree first.2 (links.map (Link.map id Prod.snd))) := by
  induction links using split_induction generalizing first tokens s with
  | nil =>
    rw [List.map_nil, Source.bracketTree, bracket_nil]
    refine (hfirst tokens h).weaken ?_
    cases s <;> decide
  | @split links before link after hsplit hparts ihBefore ihAfter =>
    have hmem : ∀ {other}, other ∈ before ∨ other = link ∨ other ∈ after → other ∈ links := by
      simp [hparts]
    have hlink := hmem (Or.inr (Or.inl rfl))
    obtain ⟨o, hop, hlevel⟩ := find?_table_eq_some_iff.1 (hlevels link hlink)
    obtain ⟨hbefore, hafter⟩ := rank_sides_of_split hlevels hsplit hlevel
    rw [hparts] at h
    obtain ⟨front, back, rfl, hfront, hback⟩ := h.exists_sides (isPlain_of_find? (hlevels link hlink))
    rw [Source.bracketTree, bracket_of_split _ (split?_lowest_map id Prod.snd hsplit)]
    refine Derives.weaken ?_ (Derives.ofOp hop (ihBefore ?_ hbefore hfirst ?_ hfront)
      (ihAfter ?_ hafter (hlinks link hlink) ?_ hback))
    · rw [Op.rank_symbol, hlevel]
      exact hrank link hlink
    · exact fun other hother => hlevels other (hmem (Or.inl hother))
    · exact fun other hother => hlinks other (hmem (Or.inl hother))
    · exact fun other hother => hlevels other (hmem (Or.inr (Or.inr hother)))
    · exact fun other hother => hlinks other (hmem (Or.inr (Or.inr hother)))

/-- The tokens of a pair that has a tree are derived from an atom. -/
theorem derives_of_reads {pair : Token} {t : Tree String} {tokens : List Token}
    (hreads : source.Reads verbose pair t) (h : Nests tokens [pair]) :
    Derives source.tokenText .atom tokens t := by
  induction pair using Pair.induction generalizing t tokens with
  | step pair ih =>
    rw [Source.Reads, Nesting.reduce_eq, outcome_bind] at hreads
    obtain ⟨value, hvisit, hfinish⟩ := bind_eq_ok.1 hreads
    rw [Source.outcome_visit_treeReduction] at hvisit
    split at hvisit
    next hrule =>
      cases hvisit
      cases hfinish
      obtain ⟨rest, rfl, hrest⟩ := h.of_plain (by rw [hrule]; rfl)
      cases hrest
      exact .num hrule
    next hrule =>
      cases hvisit
      obtain ⟨first, links, hinner, hlevels, hfirst, hlinks, rfl⟩ :=
        ((source.treeReduction_simple verbose).reduceInner_eq_ok_iff pair t).1 hfinish
      obtain ⟨opening, inside, closing, rfl, hopening, hclosing, hinside⟩ := h.of_expr hrule
      rw [hinner] at hinside
      refine .parens hopening (derives_of_chain hlevels (fun link hlink => ?_) (fun ts hts => ?_)
        (fun link hlink ts hts => ?_) hinside) hclosing
      · exact rank_sum_le (hlevels link hlink)
      · exact ih first.1 (by simp [hinner]) hfirst hts
      · refine ih link.operand.1 ?_ (hlinks link hlink) hts
        rw [hinner]
        exact List.mem_cons_of_mem _ (operand_mem_linkItems (List.mem_map_of_mem hlink))
    · cases hvisit

/-! ### From derivations to chains -/

/-- The tokens nest into a chain of pairs that have trees. The tree of the chain is `t`, and none of
its operators binds more loosely than the symbol. -/
def Covers (source : Source) (verbose : Bool) (s : Symbol) (tokens : List Token)
    (t : Tree String) : Prop :=
  ∃ (first : Token × Tree String) (links : List (Link Token (Token × Tree String))),
    Nests tokens (first.1 :: linkItems (links.map (Link.map id Prod.fst))) ∧
    source.ReadsChain verbose first links ∧ (∀ link ∈ links, s.rank ≤ link.level.prec) ∧
    source.bracketTree first.2 (links.map (Link.map id Prod.snd)) = t

theorem Covers.weaken {s s' : Symbol} {tokens : List Token} {t : Tree String}
    (h : s.rank ≤ s'.rank) (hc : Covers source verbose s' tokens t) :
    Covers source verbose s tokens t := by
  obtain ⟨first, links, hnests, hreads, hrank, ht⟩ := hc
  exact ⟨first, links, hnests, hreads, fun link hlink => h.trans (hrank link hlink), ht⟩

/-- A plain token or an expression that has a tree is a chain by itself. -/
theorem Covers.single {pair : Token} {tokens : List Token} {t : Tree String} (s : Symbol)
    (h : Nests tokens [pair]) (hreads : source.Reads verbose pair t) :
    Covers source verbose s tokens t := by
  refine ⟨(pair, t), [], h, ⟨by simp, hreads, by simp⟩, by simp, ?_⟩
  rw [List.map_nil, Source.bracketTree, bracket_nil]

/-- Two chains with an operator between them, whose operators of its precedence are all on the side
that it groups to, are one chain. -/
theorem Covers.ofOp {op : Token} {o : Op} {left right : List Token} {a b : Tree String}
    (hop : op.rule = .op o)
    (hleft : Covers source verbose (if o.level.assoc = .left then o.symbol else o.symbol.next)
      left a)
    (hright : Covers source verbose (if o.level.assoc = .left then o.symbol.next else o.symbol)
      right b) :
    Covers source verbose o.symbol (left ++ op :: right) (.node (source.tokenText op) a b) := by
  obtain ⟨first, before, hnestsLeft, ⟨hlevelsLeft, hfirst, hbefore⟩, hrankLeft, rfl⟩ := hleft
  obtain ⟨second, after, hnestsRight, ⟨hlevelsRight, hsecond, hafter⟩, hrankRight, rfl⟩ := hright
  have hlevel : Kind.table.find? op.rule = some o.level := find?_table_eq_some_iff.2 ⟨o, hop, rfl⟩
  have hlevels : ∀ link ∈ before ++ ⟨op, o.level, second⟩ :: after,
      Kind.table.find? link.op.rule = some link.level :=
    List.forall_mem_append.2 ⟨hlevelsLeft, List.forall_mem_cons.2 ⟨hlevel, hlevelsRight⟩⟩
  have hrankBefore : ∀ link ∈ before, o.level.prec ≤ link.level.prec ∧
      (o.level.assoc = .right → o.level.prec < link.level.prec) := by
    intro link hlink
    have := hrankLeft link hlink
    split at this
    next hassoc =>
      exact ⟨by simpa using this, fun hright => absurd (hassoc.symm.trans hright) nofun⟩
    · rw [Op.rank_symbol_next] at this
      exact ⟨by omega, fun _ => this⟩
  have hrankAfter : ∀ link ∈ after, o.level.prec ≤ link.level.prec ∧
      (o.level.assoc = .left → o.level.prec < link.level.prec) := by
    intro link hlink
    have := hrankRight link hlink
    split at this
    · rw [Op.rank_symbol_next] at this
      exact ⟨by omega, fun _ => this⟩
    next hassoc => exact ⟨by simpa using this, fun hleft => absurd hleft hassoc⟩
  -- The operands of the one chain are those of both, and the first of the right one follows `op`.
  refine ⟨first, before ++ ⟨op, o.level, second⟩ :: after, ?_, ⟨hlevels, hfirst, ?_⟩, ?_, ?_⟩
  · rw [List.map_append, List.map_cons, linkItems_append, linkItems_cons, ← List.cons_append]
    exact hnestsLeft.append (.plain (isPlain_of_find? hlevel) hnestsRight)
  · exact List.forall_mem_append.2 ⟨hbefore, List.forall_mem_cons.2 ⟨hsecond, hafter⟩⟩
  · rw [Op.rank_symbol]
    exact List.forall_mem_append.2 ⟨fun link hlink => (hrankBefore link hlink).1,
      List.forall_mem_cons.2 ⟨le_rfl, fun link hlink => (hrankAfter link hlink).1⟩⟩
  · have hsplit := split?_of_lowest_lt
      (fun link hlink hprec => assoc_eq_of_find? (hlevels link hlink) hlevel hprec)
      (fun link hlink => (hrankBefore link hlink).1) (fun link hlink => (hrankAfter link hlink).1)
      (fun hassoc link hlink => (hrankAfter link hlink).2 hassoc)
      fun hassoc link hlink => (hrankBefore link hlink).2 hassoc
    rw [Source.bracketTree, bracket_of_split _ (split?_lowest_map id Prod.snd hsplit)]
    rfl

/-- What a symbol derives nests into a chain with the same tree. -/
theorem covers_of_derives {s : Symbol} {tokens : List Token} {t : Tree String}
    (h : Derives source.tokenText s tokens t) : Covers source verbose s tokens t := by
  induction h with
  | @sum left right op o a b _ hop ho _ ihLeft ihRight =>
    rcases ho with rfl | rfl <;> exact Covers.ofOp hop ihLeft ihRight
  | @prod left right op o a b _ hop ho _ ihLeft ihRight =>
    rcases ho with rfl | rfl | rfl <;> exact Covers.ofOp hop ihLeft ihRight
  | pow _ hop _ ihLeft ihRight => exact Covers.ofOp hop ihLeft ihRight
  | sumOfProd _ ih => exact ih.weaken (by decide)
  | prodOfPow _ ih => exact ih.weaken (by decide)
  | powOfAtom _ ih => exact ih.weaken (by decide)
  | @num token hrule =>
    refine Covers.single _ (.single (by rw [hrule]; rfl)) ?_
    rw [Source.Reads, Nesting.reduce_eq, outcome_bind, Source.outcome_visit_treeReduction, hrule]
    rfl
  | @parens opening inside closing t hopening _ hclosing ih =>
    obtain ⟨first, links, hnests, ⟨hlevels, hfirst, hlinks⟩, -, ht⟩ := ih
    refine Covers.single _ (.parens hopening hnests hclosing .nil) ?_
    rw [Source.Reads, Nesting.reduce_eq, outcome_bind, Source.outcome_visit_treeReduction]
    exact ((source.treeReduction_simple verbose).reduceInner_eq_ok_iff
      (.mk .expr opening.start closing.stop _) t).2 ⟨first, links, rfl, hlevels, hfirst, hlinks, ht⟩

/-! ### The tree of a source -/

/-- The expression of a source has a tree just in case the grammar derives its tokens with that
tree. -/
theorem tree_eq_ok_iff (source : Source) (verbose : Bool) (log : Log) (t : Tree String) :
    ((source.tree verbose).run.run log).1 = .ok t ↔
      Derives source.tokenText .sum (tokens source) t := by
  rw [Source.run_tree, bind_eq_ok]
  constructor
  · rintro ⟨expr, hparse, hvalue⟩
    have hnests := nests_of_parse hparse
    obtain ⟨first, links, hinner, hlevels, hfirst, hlinks, rfl⟩ :=
      ((source.treeReduction_simple verbose).reduceInner_eq_ok_iff expr t).1 hvalue
    rw [hinner] at hnests
    exact derives_of_chain hlevels (fun link hlink => rank_sum_le (hlevels link hlink))
      (fun ts => derives_of_reads hfirst)
      (fun link hlink ts => derives_of_reads (hlinks link hlink))
      hnests
  · intro h
    have hcovers : Covers source verbose .sum (tokens source) t := covers_of_derives h
    obtain ⟨first, links, hnests, ⟨hlevels, hfirst, hlinks⟩, -, ht⟩ := hcovers
    obtain ⟨expr, hparse, hinner⟩ := exists_parse_eq_ok_iff.2 hnests
    exact ⟨expr, hparse, ((source.treeReduction_simple verbose).reduceInner_eq_ok_iff expr t).2
      ⟨first, links, hinner, hlevels, hfirst, hlinks, ht⟩⟩

/-- A source that has no tree is refused with a complaint about a misplaced pair. -/
theorem isClimbErrorClass_of_tree {log : Log} {fault : CalcFault Token}
    (h : ((source.tree verbose).run.run log).1 = .error fault) :
    isClimbErrorClass fault.className := by
  have hclasses : ∀ name ∈ ["CalcError", "ExcessPair", "MissingOperand"],
      isClimbErrorClass name := by
    decide +kernel
  exact hclasses _ (blames_of_tree h).className

/-- The grammar gives the tokens of a source one tree at most. That is the tree of the source; if
there is none, the source is refused with a complaint about a misplaced pair. -/
theorem tree_derives (source : Source) (verbose : Bool) (log : Log) :
    (∀ t, ((source.tree verbose).run.run log).1 = .ok t ↔
      Derives source.tokenText .sum (tokens source) t) ∧
    (∀ t u, Derives source.tokenText .sum (tokens source) t →
      Derives source.tokenText .sum (tokens source) u → t = u) ∧
    ((¬ ∃ t, Derives source.tokenText .sum (tokens source) t) →
      ∃ fault, ((source.tree verbose).run.run log).1 = .error fault ∧
        isClimbErrorClass fault.className) := by
  have htree := tree_eq_ok_iff source verbose log
  refine ⟨htree, fun t u ht hu => ?_, fun hnone => ?_⟩
  · have := ((htree t).2 ht).symm.trans ((htree u).2 hu)
    exact Except.ok.inj this
  · cases hresult : ((source.tree verbose).run.run log).1 with
    | ok t => exact absurd ⟨t, (htree t).1 hresult⟩ hnone
    | error fault => exact ⟨fault, rfl, isClimbErrorClass_of_tree hresult⟩

/-- Products stand below sums in a tree, and parentheses leave no trace. -/
example :
    (((Source.ofString "" "(1)-2*3" 0).tree false).run.run []).1.toOption =
      some (.node "-" (.leaf "1") (.node "*" (.leaf "2") (.leaf "3"))) := by
  decide +kernel

end Precedence
