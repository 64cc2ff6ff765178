import Mathlib
import Precedence.Calculator.Expression
import Precedence.Proofs.Calculator.Lexemes
import Precedence.Proofs.Coupling

/-!
# Parentheses

Reading a list of tokens puts the pairs between two parentheses into an expression of its own. This
succeeds just in case the parentheses match and no token is invalid.

## Main definitions

- `Kind.isPlain` — the kinds of tokens that are taken as they are
- `Nests` — the pairs that a list of tokens nests into
- `OpenExpr` — the expressions that are open while tokens are read
- `OpenExpr.frames` — the same as a list of frames
- `Spells` — what has been read while parentheses are open
- `Source.parse` — the expression of a source, without the lines written about its tokens

## Main statements

- `push_frames`, `close_frames` — what is open is at all times such a list of frames
- `push_spells` — reading a token goes on spelling what is open
- `foldlM_push_of_nests` — tokens that nest are read
- `exists_parse_eq_ok_iff` — which tokens make an expression
-/

namespace Precedence

/-- The kinds of tokens that are taken as they are. -/
def Kind.isPlain : Kind → Bool
  | .spaces | .num | .op _ => true
  | _ => false

/-- The pairs that a list of tokens nests into: a plain token is a pair, and so is what stands between
two parentheses. -/
inductive Nests : List Token → List Token → Prop
  | nil : Nests [] []
  | plain {token tokens pairs} (htoken : token.rule.isPlain) (h : Nests tokens pairs) :
      Nests (token :: tokens) (token :: pairs)
  | parens {opening inside inner closing tokens pairs} (hopening : opening.rule = .parenOpen)
      (hinside : Nests inside inner) (hclosing : closing.rule = .parenClose)
      (h : Nests tokens pairs) :
      Nests (opening :: (inside ++ closing :: tokens))
        (.mk .expr opening.start closing.stop inner :: pairs)

namespace Nests

theorem append {tokens more pairs others : List Token} (h : Nests tokens pairs)
    (hmore : Nests more others) : Nests (tokens ++ more) (pairs ++ others) := by
  induction h with
  | nil => exact hmore
  | plain htoken _ ih => exact ih.plain htoken
  | parens hopening hinside hclosing _ _ ih =>
    rw [List.cons_append, List.append_assoc, List.cons_append]
    exact .parens hopening hinside hclosing ih

theorem single {token : Token} (h : token.rule.isPlain) : Nests [token] [token] :=
  .plain h .nil

/-- The tokens of two lists of pairs, one after the other. -/
theorem exists_append {tokens pairs others : List Token} (h : Nests tokens (pairs ++ others)) :
    ∃ front back, tokens = front ++ back ∧ Nests front pairs ∧ Nests back others := by
  induction pairs generalizing tokens with
  | nil => exact ⟨[], tokens, rfl, .nil, h⟩
  | cons pair pairs ih =>
    rw [List.cons_append] at h
    cases h with
    | plain htoken h =>
      obtain ⟨front, back, rfl, hfront, hback⟩ := ih h
      exact ⟨_ :: front, back, rfl, hfront.plain htoken, hback⟩
    | @parens opening inside inner closing rest _ hopening hinside hclosing h =>
      obtain ⟨front, back, rfl, hfront, hback⟩ := ih h
      refine ⟨opening :: (inside ++ closing :: front), back, ?_,
        .parens hopening hinside hclosing hfront, hback⟩
      simp

theorem of_plain {tokens pairs : List Token} {pair : Token} (hpair : pair.rule.isPlain)
    (h : Nests tokens (pair :: pairs)) :
    ∃ rest, tokens = pair :: rest ∧ Nests rest pairs := by
  cases h with
  | plain _ h => exact ⟨_, rfl, h⟩
  | parens => exact absurd hpair (by simp [Kind.isPlain])

theorem of_expr {tokens : List Token} {pair : Token} (hpair : pair.rule = .expr)
    (h : Nests tokens [pair]) :
    ∃ opening inside closing, tokens = opening :: (inside ++ [closing]) ∧
      opening.rule = .parenOpen ∧ closing.rule = .parenClose ∧ Nests inside pair.inner := by
  cases h with
  | plain htoken _ => rw [hpair] at htoken; exact absurd htoken (by simp [Kind.isPlain])
  | parens hopening hinside hclosing h =>
    cases h
    exact ⟨_, _, _, rfl, hopening, hclosing, hinside⟩

end Nests

/-! ### Open expressions -/

/-- What has been read of an expression and of those around it. `items` are the pairs read since the
innermost open parenthesis, the last one first; `outer` has every open parenthesis, the innermost
first, with the pairs before it. -/
structure OpenExpr where
  outer : List (Token × List Token)
  items : List Token

namespace OpenExpr

/-- Nothing has been read. -/
def empty : OpenExpr :=
  ⟨[], []⟩

/-- Read a token. -/
def push (expr : OpenExpr) (token : Token) : Except (CalcFault Token) OpenExpr :=
  match token.rule with
  | .invalid => .error (.invalidToken token)
  | .parenOpen => .ok ⟨(token, expr.items) :: expr.outer, []⟩
  | .parenClose =>
    match expr.outer with
    | [] => .error (.unmatchedClose token)
    | (opening, before) :: outer =>
      .ok ⟨outer, .mk .expr opening.start token.stop expr.items.reverse :: before⟩
  | _ => .ok { expr with items := token :: expr.items }

/-- The expression of the whole text, whose length is `size`. Without tokens it stands at the end. -/
def close (size : Nat) (expr : OpenExpr) : Except (CalcFault Token) Token :=
  match expr.outer with
  | (opening, _) :: _ => .error (.unclosedOpen (some opening))
  | [] =>
    let inner := expr.items.reverse
    match inner.head?, expr.items.head? with
    | some first, some last => .ok (.mk .expr first.start last.stop inner)
    | _, _ => .ok (.mk .expr size size inner)

/-- The frames of an expression with those around it: all but the last have a parenthesis. -/
def framesOf : List (Token × List Token) → List Token → List Frame
  | [], items => [⟨none, items⟩]
  | (opening, before) :: outer, items => ⟨some opening, items⟩ :: framesOf outer before

/-- What is open, as frames. -/
def frames (expr : OpenExpr) : List Frame :=
  framesOf expr.outer expr.items

theorem append_frames (expr : OpenExpr) (pair : Token) :
    Frame.append pair expr.frames = .ok { expr with items := pair :: expr.items }.frames := by
  obtain ⟨outer, items⟩ := expr
  cases outer <;> rfl

theorem length_frames (expr : OpenExpr) : expr.frames.length = expr.outer.length + 1 := by
  obtain ⟨outer, items⟩ := expr
  induction outer generalizing items with
  | nil => rfl
  | cons opened outer ih =>
    change (framesOf outer opened.2).length + 1 = outer.length + 1 + 1
    rw [← ih opened.2]
    rfl

/-- Reading a token makes frames of what is open, so no frame is missing a parenthesis. -/
theorem push_frames (expr : OpenExpr) (token : Token) :
    Frame.push expr.frames token = (expr.push token).map frames := by
  have happend := expr.append_frames token
  unfold Frame.push push
  cases token.rule with
  | invalid => rfl
  | parenOpen => rfl
  | parenClose =>
    dsimp only
    rw [length_frames]
    obtain ⟨outer, items⟩ := expr
    cases outer with
    | nil => rfl
    | cons opened outer =>
      obtain ⟨opening, before⟩ := opened
      rw [if_neg (by simp)]
      exact append_frames ⟨outer, before⟩ _
  | _ => exact happend

theorem close_frames (size : Nat) (expr : OpenExpr) :
    Frame.close size expr.frames = expr.close size := by
  obtain ⟨outer, items⟩ := expr
  cases outer with
  | nil => rfl
  | cons opened outer => cases outer <;> rfl

end OpenExpr

/-! ### Reading tokens -/

/-- What has been read while parentheses are open: the tokens before each of them, and those after
the last, nest into the pairs that are kept for them. -/
def Spells : List (Token × List Token) → List Token → List Token → Prop
  | [], items, read => Nests read items.reverse
  | (opening, before) :: outer, items, read =>
    ∃ front inside, read = front ++ opening :: inside ∧ opening.rule = .parenOpen ∧
      Spells outer before front ∧ Nests inside items.reverse

/-- Reading tokens that nest into one more pair. -/
theorem Spells.snoc {outer : List (Token × List Token)} {items read more : List Token}
    {pair : Token} (h : Spells outer items read) (hmore : Nests more [pair]) :
    Spells outer (pair :: items) (read ++ more) := by
  cases outer with
  | nil =>
    rw [Spells, List.reverse_cons]
    exact h.append hmore
  | cons opened outer =>
    obtain ⟨front, inside, rfl, hopening, hfront, hinside⟩ := h
    refine ⟨front, inside ++ more, by simp, hopening, hfront, ?_⟩
    rw [List.reverse_cons]
    exact hinside.append hmore

/-- Reading a token goes on spelling what is open. -/
theorem push_spells {expr expr' : OpenExpr} {token : Token} {read : List Token}
    (hpush : expr.push token = .ok expr') (hrule : token.rule ≠ .expr)
    (h : Spells expr.outer expr.items read) :
    Spells expr'.outer expr'.items (read ++ [token]) := by
  rw [OpenExpr.push] at hpush
  split at hpush
  next => cases hpush
  next hopening =>
    cases hpush
    exact ⟨read, [], rfl, hopening, h, .nil⟩
  next hclosing =>
    split at hpush
    · cases hpush
    next opening before outer houter =>
      cases hpush
      rw [houter] at h
      obtain ⟨front, inside, rfl, hopening, hfront, hinside⟩ := h
      -- The new pair stands beside those read before its opening parenthesis.
      rw [List.append_assoc]
      exact hfront.snoc (.parens hopening hinside hclosing .nil)
  next hinvalid hopen hclose =>
    cases hpush
    refine h.snoc (.single ?_)
    revert hrule hinvalid hopen hclose
    cases token.rule <;> simp [Kind.isPlain]

theorem foldlM_push_spells {tokens : List Token} {expr expr' : OpenExpr} {read : List Token}
    (hpush : tokens.foldlM OpenExpr.push expr = .ok expr')
    (hrules : ∀ token ∈ tokens, token.rule ≠ .expr) (h : Spells expr.outer expr.items read) :
    Spells expr'.outer expr'.items (read ++ tokens) := by
  induction tokens generalizing expr read with
  | nil =>
    cases hpush
    rwa [List.append_nil]
  | cons token tokens ih =>
    rw [List.foldlM_cons] at hpush
    cases hfirst : expr.push token with
    | error fault => rw [hfirst] at hpush; cases hpush
    | ok next =>
      rw [hfirst] at hpush
      have hnext := push_spells hfirst (hrules token List.mem_cons_self) h
      rw [← List.singleton_append, ← List.append_assoc]
      exact ih hpush (fun other hother => hrules other (List.mem_cons_of_mem _ hother)) hnext

/-- Tokens that nest are read, and their pairs put after those read before. -/
theorem foldlM_push_of_nests {tokens pairs : List Token} (h : Nests tokens pairs)
    (outer : List (Token × List Token)) (items rest : List Token) :
    (tokens ++ rest).foldlM OpenExpr.push ⟨outer, items⟩ =
      rest.foldlM OpenExpr.push ⟨outer, pairs.reverse ++ items⟩ := by
  induction h generalizing outer items rest with
  | nil => rfl
  | @plain token tokens pairs htoken _ ih =>
    have hpush : OpenExpr.push ⟨outer, items⟩ token = .ok ⟨outer, token :: items⟩ := by
      rw [OpenExpr.push]
      revert htoken
      cases token.rule <;> simp [Kind.isPlain]
    rw [List.cons_append, List.foldlM_cons, hpush, List.reverse_cons, List.append_assoc]
    exact ih outer (token :: items) rest
  | @parens opening inside inner closing tokens pairs hopening _ hclosing _ ihInside ih =>
    have hopen : OpenExpr.push ⟨outer, items⟩ opening = .ok ⟨(opening, items) :: outer, []⟩ := by
      rw [OpenExpr.push, hopening]
    have hclose : OpenExpr.push ⟨(opening, items) :: outer, inner.reverse⟩ closing =
        .ok ⟨outer, .mk .expr opening.start closing.stop inner :: items⟩ := by
      rw [OpenExpr.push, hclosing]
      simp only [List.reverse_reverse]
    rw [List.cons_append, List.append_assoc, List.foldlM_cons, hopen, List.cons_append]
    change (inside ++ closing :: (tokens ++ rest)).foldlM OpenExpr.push
      ⟨(opening, items) :: outer, []⟩ = _
    -- While the tokens inside are read, the pairs before the parenthesis are put aside.
    rw [ihInside, List.append_nil, List.foldlM_cons, hclose, List.reverse_cons, List.append_assoc]
    exact ih outer (.mk .expr opening.start closing.stop inner :: items) rest

/-! ### The expression of a source -/

/-- The expression of the tokens of a source, without the lines that are written about them. -/
def Source.parse (source : Source) : Except (CalcFault Token) Token := do
  let expr ← (tokens source).foldlM OpenExpr.push .empty
  expr.close source.length

theorem run_readTokens (source : Source) (verbose : Bool) (expr : OpenExpr) (tokens : List Token)
    (log : Log) :
    ((source.readTokens verbose expr.frames tokens).run.run log).1 =
      (tokens.foldlM OpenExpr.push expr).map OpenExpr.frames := by
  induction tokens generalizing expr log with
  | nil => rfl
  | cons token tokens ih =>
    rw [Source.readTokens, run_bind_ok (run_lift _ log), List.foldlM_cons, expr.push_frames]
    cases expr.push token with
    | error fault => rfl
    | ok expr => exact ih expr _

/-- Lines make no difference to the expression of a source. -/
theorem run_expression (source : Source) (verbose : Bool) (log : Log) :
    ((source.expression verbose).run.run log).1 = source.parse := by
  have hread := run_readTokens source verbose .empty (tokens source) log
  rw [Source.expression, fault_lexing, run_bind, Source.parse]
  change ((source.readTokens verbose Frame.initial (tokens source)).run.run log).1 = _ at hread
  revert hread
  rcases (source.readTokens verbose Frame.initial (tokens source)).run.run log with ⟨result, log'⟩
  rintro rfl
  cases (tokens source).foldlM OpenExpr.push .empty with
  | error fault => rfl
  | ok expr =>
    have hbind : (Except.ok expr >>= OpenExpr.close source.length) = expr.close source.length := rfl
    dsimp only [Except.map]
    rw [expr.close_frames, hbind]
    cases expr.close source.length <;> rfl

/-- Once no parenthesis is open, the pairs that have been read are the inner pairs of an
expression. -/
theorem close_nil (size : Nat) (items : List Token) :
    ∃ start stop, OpenExpr.close size ⟨[], items⟩ = .ok (.mk .expr start stop items.reverse) := by
  simp only [OpenExpr.close]
  split
  all_goals exact ⟨_, _, rfl⟩

theorem close_eq_ok {size : Nat} {expr : OpenExpr} {pair : Token}
    (h : expr.close size = .ok pair) : expr.outer = [] ∧ pair.inner = expr.items.reverse := by
  obtain ⟨outer, items⟩ := expr
  cases outer with
  | cons opened outer => cases h
  | nil =>
    obtain ⟨start, stop, hclose⟩ := close_nil size items
    rw [hclose] at h
    cases h
    exact ⟨rfl, rfl⟩

/-- The tokens of a source make an expression just in case they nest, and then the inner pairs of the
expression are those that they nest into. -/
theorem exists_parse_eq_ok_iff {source : Source} {pairs : List Token} :
    (∃ expr, source.parse = .ok expr ∧ expr.inner = pairs) ↔ Nests (tokens source) pairs := by
  constructor
  · rintro ⟨expr, hparse, rfl⟩
    rw [Source.parse] at hparse
    cases hread : (tokens source).foldlM OpenExpr.push .empty with
    | error fault => rw [hread] at hparse; cases hparse
    | ok opened =>
      rw [hread] at hparse
      obtain ⟨houter, hinner⟩ := close_eq_ok hparse
      have hspells := foldlM_push_spells hread (fun _ => rule_ne_expr_of_mem_tokens) .nil
      rwa [houter, List.nil_append, Spells, ← hinner] at hspells
  · intro h
    have hread := foldlM_push_of_nests h [] [] []
    rw [List.append_nil, List.append_nil] at hread
    obtain ⟨start, stop, hclose⟩ := close_nil source.length pairs.reverse
    rw [List.reverse_reverse] at hclose
    refine ⟨.mk .expr start stop pairs, ?_, rfl⟩
    rw [Source.parse, OpenExpr.empty, hread]
    exact hclose

theorem nests_of_parse {source : Source} {expr : Token} (h : source.parse = .ok expr) :
    Nests (tokens source) expr.inner :=
  exists_parse_eq_ok_iff.1 ⟨expr, h, rfl⟩

end Precedence
