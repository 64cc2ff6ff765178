import Mathlib
import Precedence.Proofs.Calculator.Placement

/-!
# What becomes of the tokens of a source

The expression of a source is refused at the first token that cannot be read, or else at the last
parenthesis that is never closed. If there is neither, then the expression gives its tokens back.

## Main definitions

- `Complaint`, `Refuses` — a refusal, with what it says
- `rise`, `Stays` — how deep tokens lead into parentheses
- `Unclosed`, `HasOpen` — a parenthesis that the tokens after it do not close
- `Refused`, `Readable` — tokens that cannot be read after those before them, and lists without any
- `Token.flatten`, `Token.flattenAll` — the tokens that pairs are made of

## Main statements

- `push_of_refused`, `exists_push_of_not_refused` — which tokens are refused, whatever is open
- `exists_first_refused` — a list that cannot be read has a first token that is refused
- `exists_unclosed_of_spells` — the innermost open parenthesis is the last that is not closed
- `flattenAll_of_nests` — the pairs that tokens nest into give the tokens back
- `parse_verdict` — which of the three happens, and how
-/

namespace Precedence

/-! ### Complaints -/

/-- What is said when a source is refused: the class of the fault, its wording, and the pair that is
at fault. -/
structure Complaint where
  className : String
  reason : String
  about : Token

/-- A result is a refusal that says the given. -/
def Refuses {α : Type} (result : Except (CalcFault Token) α) (complaint : Complaint) : Prop :=
  ∃ fault, result = .error fault ∧ fault.className = complaint.className ∧
    fault.reason = complaint.reason ∧ fault.about? = some complaint.about

/-! ### Depth -/

/-- How much deeper a token leads into parentheses. -/
def Token.rise (token : Token) : Int :=
  match token.rule with
  | .parenOpen => 1
  | .parenClose => -1
  | _ => 0

/-- How much deeper tokens lead into parentheses: how many they open, less those that they close. -/
def rise (tokens : List Token) : Int :=
  (tokens.map Token.rise).sum

@[simp] theorem rise_nil : rise [] = 0 := rfl

@[simp] theorem rise_cons (token : Token) (tokens : List Token) :
    rise (token :: tokens) = token.rise + rise tokens := by
  simp [rise]

@[simp] theorem rise_append (tokens more : List Token) :
    rise (tokens ++ more) = rise tokens + rise more := by
  simp [rise]

theorem rise_of_opens {token : Token} (h : token.rule = .parenOpen) : token.rise = 1 := by
  rw [Token.rise, h]

theorem rise_of_closes {token : Token} (h : token.rule = .parenClose) : token.rise = -1 := by
  rw [Token.rise, h]

theorem rise_of_isPlain {token : Token} (h : token.rule.isPlain) : token.rise = 0 := by
  rw [Token.rise]
  revert h
  cases token.rule <;> simp [Kind.isPlain]

/-- Tokens that are read at some depth never lead out of all parentheses. -/
def Stays (depth : Int) (tokens : List Token) : Prop :=
  ∀ front, front <+: tokens → 0 ≤ depth + rise front

theorem stays_nil {depth : Int} : Stays depth [] ↔ 0 ≤ depth := by
  simp [Stays, List.prefix_nil]

theorem stays_cons {depth : Int} {token : Token} {tokens : List Token} :
    Stays depth (token :: tokens) ↔ 0 ≤ depth ∧ Stays (depth + token.rise) tokens := by
  constructor
  · intro h
    refine ⟨by simpa using h [] List.nil_prefix, fun front hfront => ?_⟩
    have hcons := h (token :: front) (List.cons_prefix_cons.2 ⟨rfl, hfront⟩)
    rw [rise_cons] at hcons
    omega
  · rintro ⟨hdepth, h⟩ front hfront
    obtain rfl | ⟨rest, rfl, hrest⟩ := List.prefix_cons_iff.1 hfront
    · simpa using hdepth
    · have hle := h rest hrest
      rw [rise_cons]
      omega

theorem stays_append {depth : Int} {tokens more : List Token} :
    Stays depth (tokens ++ more) ↔ Stays depth tokens ∧ Stays (depth + rise tokens) more := by
  induction tokens generalizing depth with
  | nil =>
    rw [List.nil_append, rise_nil, add_zero, stays_nil]
    refine ⟨fun h => ⟨?_, h⟩, And.right⟩
    simpa using h [] List.nil_prefix
  | cons token tokens ih =>
    rw [List.cons_append, stays_cons, stays_cons, ih, rise_cons, and_assoc, add_assoc]

theorem Stays.le {depth : Int} {tokens : List Token} (h : Stays depth tokens) :
    0 ≤ depth + rise tokens :=
  h tokens List.prefix_rfl

/-- Tokens that nest close as many parentheses as they open. -/
theorem rise_of_nests {tokens pairs : List Token} (h : Nests tokens pairs) : rise tokens = 0 := by
  induction h with
  | nil => rfl
  | plain htoken _ ih => rw [rise_cons, rise_of_isPlain htoken, ih, add_zero]
  | parens hopening _ hclosing _ ihInside ih =>
    rw [rise_cons, rise_append, rise_cons, rise_of_opens hopening, rise_of_closes hclosing, ihInside,
      ih]
    rfl

/-- Tokens that nest never close a parenthesis that they have not opened. -/
theorem stays_of_nests {tokens pairs : List Token} (h : Nests tokens pairs) {depth : Int}
    (hdepth : 0 ≤ depth) : Stays depth tokens := by
  induction h generalizing depth with
  | nil => exact stays_nil.2 hdepth
  | plain htoken _ ih =>
    rw [stays_cons, rise_of_isPlain htoken]
    exact ⟨hdepth, ih (by omega)⟩
  | parens hopening hinside hclosing _ ihInside ih =>
    rw [stays_cons, stays_append, stays_cons, rise_of_opens hopening, rise_of_closes hclosing,
      rise_of_nests hinside]
    exact ⟨hdepth, ihInside (by omega), by omega, ih (by omega)⟩

/-! ### Open parentheses -/

/-- The token opens a parenthesis which the tokens after it do not close. -/
def Unclosed (opening : Token) (after : List Token) : Prop :=
  opening.rule = .parenOpen ∧ Stays 0 after

/-- A parenthesis is open once the tokens have been read. -/
def HasOpen (tokens : List Token) : Prop :=
  ∃ front opening after, tokens = front ++ opening :: after ∧ Unclosed opening after

/-- Tokens that nest leave no parenthesis open. -/
theorem not_hasOpen_of_nests {tokens pairs : List Token} (h : Nests tokens pairs) :
    ¬ HasOpen tokens := by
  rintro ⟨front, opening, after, rfl, hopening, hafter⟩
  have hrise := rise_of_nests h
  have hfront := (stays_append.1 (stays_of_nests h le_rfl)).1.le
  have hrest := hafter.le
  rw [rise_append, rise_cons, rise_of_opens hopening] at hrise
  -- The tokens before the parenthesis and those after it lead no higher than they start.
  omega

/-- The innermost open parenthesis is the last one that the tokens after it do not close. -/
theorem exists_unclosed_of_spells {opening : Token} {before items read : List Token}
    {outer : List (Token × List Token)} (h : Spells ((opening, before) :: outer) items read) :
    ∃ front after, read = front ++ opening :: after ∧ Unclosed opening after ∧ ¬ HasOpen after := by
  obtain ⟨front, inside, rfl, hopening, -, hinside⟩ := h
  exact ⟨front, inside, rfl, ⟨hopening, stays_of_nests hinside le_rfl⟩, not_hasOpen_of_nests hinside⟩

/-- A parenthesis is open just in case one is kept as open. -/
theorem hasOpen_iff_of_spells {outer : List (Token × List Token)} {items read : List Token}
    (h : Spells outer items read) : HasOpen read ↔ outer ≠ [] := by
  cases outer with
  | nil => simpa using not_hasOpen_of_nests h
  | cons opened outer =>
    obtain ⟨front, after, hread, hopening, -⟩ := exists_unclosed_of_spells h
    exact iff_of_true ⟨front, opened.1, after, hread, hopening⟩ (List.cons_ne_nil _ _)

/-! ### Tokens that are refused -/

/-- A token that cannot be read after the tokens before it, and why. -/
inductive Refused (before : List Token) (token : Token) : String → Prop
  | invalid (h : token.rule = .invalid) : Refused before token "invalid token"
  | unmatched (h : token.rule = .parenClose) (hopen : ¬ HasOpen before) :
      Refused before token "unmatched closing parenthesis"

/-- None of the tokens is refused after those before it. -/
def Readable (tokens : List Token) : Prop :=
  ∀ before token after reason, tokens = before ++ token :: after → ¬ Refused before token reason

theorem readable_nil : Readable [] := by
  rintro before token after reason h
  exact absurd h (by simp)

theorem readable_concat {tokens : List Token} {token : Token} :
    Readable (tokens ++ [token]) ↔ Readable tokens ∧ ∀ reason, ¬ Refused tokens token reason := by
  constructor
  · intro h
    refine ⟨?_, fun reason => h tokens token [] reason rfl⟩
    rintro before other after reason rfl
    exact h before other (after ++ [token]) reason (by simp)
  · rintro ⟨h, hlast⟩ before other after reason heq
    -- The token that is refused is the last one, or one of those before it.
    induction after using List.reverseRecOn with
    | nil =>
      obtain ⟨rfl, rfl⟩ := List.concat_inj.1 (by simpa using heq)
      exact hlast reason
    | append_singleton after last =>
      rw [← List.cons_append, ← List.append_assoc] at heq
      exact h before other after reason (List.append_inj_left' heq rfl)

/-- A list with a token that is refused has a first one. -/
theorem exists_first_refused {tokens : List Token} (h : ¬ Readable tokens) :
    ∃ before token after reason, tokens = before ++ token :: after ∧ Readable before ∧
      Refused before token reason := by
  induction tokens using List.reverseRecOn with
  | nil => exact absurd readable_nil h
  | append_singleton tokens token ih =>
    by_cases htokens : Readable tokens
    · rw [readable_concat, not_and] at h
      obtain ⟨reason, hreason⟩ := not_forall_not.1 (h htokens)
      exact ⟨tokens, token, [], reason, rfl, htokens, hreason⟩
    · obtain ⟨before, other, after, reason, rfl, hbefore, hother⟩ := ih htokens
      exact ⟨before, other, after ++ [token], reason, by simp, hbefore, hother⟩

variable {expr : OpenExpr} {token : Token} {read : List Token}

/-- A token that is refused after those before it is refused by what they leave open. -/
theorem push_of_refused {reason : String} (h : Spells expr.outer expr.items read)
    (hrefused : Refused read token reason) :
    Refuses (expr.push token) ⟨"CalcError", reason, token⟩ := by
  cases hrefused with
  | invalid hrule => exact ⟨.invalidToken token, by rw [OpenExpr.push, hrule], rfl, rfl, rfl⟩
  | unmatched hrule hopen =>
    have houter : expr.outer = [] := by simpa [hasOpen_iff_of_spells h] using hopen
    exact ⟨.unmatchedClose token, by rw [OpenExpr.push, hrule, houter], rfl, rfl, rfl⟩

/-- Any other token is read. -/
theorem exists_push_of_not_refused (h : Spells expr.outer expr.items read)
    (hread : ∀ reason, ¬ Refused read token reason) : ∃ next, expr.push token = .ok next := by
  cases hrule : token.rule with
  | invalid => exact absurd (.invalid hrule) (hread _)
  | parenClose =>
    have hopen : HasOpen read := by
      by_contra hopen
      exact hread _ (.unmatched hrule hopen)
    obtain ⟨opened, outer, houter⟩ := List.exists_cons_of_ne_nil ((hasOpen_iff_of_spells h).1 hopen)
    exact ⟨_, by rw [OpenExpr.push, hrule, houter]⟩
  | _ => exact ⟨_, by rw [OpenExpr.push, hrule]⟩

/-- Tokens that can be read one after the other are read. -/
theorem exists_foldlM_push_of_readable {tokens : List Token} (h : Readable tokens)
    (hrules : ∀ token ∈ tokens, token.rule ≠ .expr) :
    ∃ expr, tokens.foldlM OpenExpr.push .empty = .ok expr ∧
      Spells expr.outer expr.items tokens := by
  induction tokens using List.reverseRecOn with
  | nil => exact ⟨.empty, rfl, .nil⟩
  | append_singleton tokens token ih =>
    obtain ⟨hrules, htoken⟩ := List.forall_mem_append.1 hrules
    obtain ⟨htokens, hread⟩ := readable_concat.1 h
    obtain ⟨expr, hexpr, hspells⟩ := ih htokens hrules
    obtain ⟨next, hnext⟩ := exists_push_of_not_refused hspells hread
    refine ⟨next, ?_, push_spells hnext (htoken token List.mem_cons_self) hspells⟩
    rw [List.foldlM_append, hexpr]
    show [token].foldlM OpenExpr.push expr = _
    rw [List.foldlM_cons, hnext]
    rfl

/-- What has been read before the first token that is refused refuses it. -/
theorem exists_foldlM_push_of_refused {before : List Token} {reason : String} (h : Readable before)
    (hrules : ∀ token ∈ before, token.rule ≠ .expr) (hrefused : Refused before token reason) :
    ∃ expr, before.foldlM OpenExpr.push .empty = .ok expr ∧
      Refuses (expr.push token) ⟨"CalcError", reason, token⟩ := by
  obtain ⟨expr, hexpr, hspells⟩ := exists_foldlM_push_of_readable h hrules
  exact ⟨expr, hexpr, push_of_refused hspells hrefused⟩

/-- The first token that is refused ends the reading. -/
theorem foldlM_push_of_refused {before : List Token} {reason : String} (after : List Token)
    (h : Readable before) (hrules : ∀ token ∈ before, token.rule ≠ .expr)
    (hrefused : Refused before token reason) :
    Refuses ((before ++ token :: after).foldlM OpenExpr.push .empty)
      ⟨"CalcError", reason, token⟩ := by
  obtain ⟨expr, hexpr, fault, hfault, hsays⟩ := exists_foldlM_push_of_refused h hrules hrefused
  refine ⟨fault, ?_, hsays⟩
  rw [List.foldlM_append, hexpr]
  show (token :: after).foldlM OpenExpr.push expr = _
  rw [List.foldlM_cons, hfault]
  rfl

/-! ### The tokens of pairs -/

mutual

/-- The tokens that a pair is made of. An expression gives back its parentheses, with the tokens of its
inner pairs between them; any other pair is a token. -/
def Token.flatten : Token → List Token
  | .mk rule start stop inner =>
    if rule = .expr then
      .leaf .parenOpen start (start + 1) ::
        (Token.flattenAll inner ++ [.leaf .parenClose (stop - 1) stop])
    else [.mk rule start stop inner]
termination_by structural pair => pair

/-- The tokens that the pairs of a list are made of. -/
def Token.flattenAll : List Token → List Token
  | [] => []
  | pair :: pairs => Token.flatten pair ++ Token.flattenAll pairs
termination_by structural pairs => pairs

end

theorem flatten_of_rule_ne {token : Token} (h : token.rule ≠ .expr) : token.flatten = [token] := by
  obtain ⟨rule, start, stop, inner⟩ := token
  exact if_neg h

/-- The token is one character of the text, and has no inner pairs. -/
def Token.IsChar (token : Token) : Prop :=
  token = .leaf token.rule token.start (token.start + 1)

theorem isChar_of_mem_tokens {source : Source} {token : Token} (h : token ∈ tokens source)
    (hrule : token.rule = .parenOpen ∨ token.rule = .parenClose) : token.IsChar := by
  obtain ⟨start, stop, rfl⟩ | ⟨kind, pattern, xs, start, hentry, hxs, rfl, -⟩ :=
    exists_accepts_of_mem_tokens h
  · simp [Pair.leaf] at hrule
  · have hpattern : ∃ set, pattern = .char set := by
      simp only [Kind.patterns, Kind.ofOp, List.mem_cons, Prod.mk.injEq, List.not_mem_nil,
        or_false] at hentry
      change kind = .parenOpen ∨ kind = .parenClose at hrule
      rcases hrule with rfl | rfl
      all_goals simp at hentry; exact ⟨_, hentry⟩
    obtain ⟨set, rfl⟩ := hpattern
    obtain ⟨c, -, rfl⟩ := accepts_char hxs
    rfl

/-- The pairs that tokens nest into give the tokens back. -/
theorem flattenAll_of_nests {tokens pairs : List Token} (h : Nests tokens pairs)
    (hrules : ∀ token ∈ tokens, token.rule ≠ .expr)
    (hparens : ∀ token ∈ tokens, token.rule = .parenOpen ∨ token.rule = .parenClose →
      token.IsChar) : Token.flattenAll pairs = tokens := by
  induction h with
  | nil => rfl
  | plain _ _ ih =>
    rw [Token.flattenAll, flatten_of_rule_ne (hrules _ List.mem_cons_self),
      ih (fun other hother => hrules other (List.mem_cons_of_mem _ hother))
        (fun other hother => hparens other (List.mem_cons_of_mem _ hother))]
    rfl
  | @parens opening inside inner closing tokens pairs hopening _ hclosing _ ihInside ih =>
    simp only [List.forall_mem_cons, List.forall_mem_append] at hrules hparens
    -- A parenthesis is one character, so the ends of the expression tell where both of its own are.
    have hopen : opening = .leaf .parenOpen opening.start (opening.start + 1) := by
      rw [← hopening]
      exact hparens.1 (Or.inl hopening)
    have hclose : closing = .leaf .parenClose (closing.stop - 1) closing.stop := by
      have hchar : closing = .leaf closing.rule closing.start (closing.start + 1) :=
        hparens.2.2.1 (Or.inr hclosing)
      have hstop : closing.stop = closing.start + 1 := congrArg Pair.stop hchar
      rw [hstop, add_sub_cancel_right, ← hclosing]
      exact hchar
    have hinner : Token.flattenAll inner = inside := ihInside hrules.2.1 hparens.2.1
    have hrest : Token.flattenAll pairs = tokens := ih hrules.2.2.2 hparens.2.2.2
    rw [Token.flattenAll, Token.flatten, if_pos rfl, hinner, hrest, ← hopen, ← hclose]
    simp

/-- The first of the pairs starts where the first of the tokens does. -/
theorem start_head_of_nests {tokens pairs : List Token} (h : Nests tokens pairs) :
    pairs.head?.map Pair.start = tokens.head?.map Pair.start := by
  cases h <;> rfl

/-- The last of the pairs ends where the last of the tokens does. -/
theorem stop_getLast_of_nests {tokens pairs : List Token} (h : Nests tokens pairs) :
    pairs.getLast?.map Pair.stop = tokens.getLast?.map Pair.stop := by
  induction h with
  | nil => rfl
  | @plain token tokens pairs _ h ih =>
    cases h with
    | nil => rfl
    | _ => simpa [List.getLast?_cons_cons] using ih
  | @parens opening inside inner closing tokens pairs _ _ _ h _ ih =>
    rw [← List.cons_append, List.getLast?_append_of_ne_nil _ (List.cons_ne_nil _ _)]
    cases h with
    | nil => rfl
    | _ => simpa only [List.getLast?_cons_cons] using ih

/-! ### The verdict on a source -/

/-- Pairs stand between the start of the first and the end of the last. -/
theorem Laid.of_ends {first last : Int} {a b : Token} {pairs : List Token}
    (h : Laid first last pairs) (ha : pairs.head? = some a) (hb : pairs.getLast? = some b) :
    Laid a.start b.stop pairs := by
  -- Only the end takes an induction: the start is seen at the first pair.
  have hlast : Laid first b.stop pairs := by
    clear ha
    induction h with
    | nil => exact nomatch hb
    | @token _ _ pair pairs hfirst hlt hinner _ ih =>
      refine .token hfirst hlt hinner ?_
      cases pairs with
      | nil => cases hb; exact .nil le_rfl
      | cons => exact ih (by rwa [List.getLast?_cons_cons] at hb)
    | @expr _ _ pair pairs hfirst hinner _ _ ih =>
      refine .expr hfirst hinner ?_
      cases pairs with
      | nil => cases hb; exact .nil le_rfl
      | cons => exact ih (by rwa [List.getLast?_cons_cons] at hb)
  cases hlast with
  | nil => exact nomatch ha
  | token _ hlt hinner hrest => cases ha; exact .token le_rfl hlt hinner hrest
  | expr _ hinner hrest => cases ha; exact .expr le_rfl hinner hrest

/-- An expression with the tokens of the source in their order, none of them lost or added. Pairs stand
beside each other, the inner pairs of an expression strictly inside it, and the whole from the start of
the first token to the end of the last, or at the end of a text without tokens. -/
structure Source.Restores (source : Source) (expr : Token) : Prop where
  rule : expr.rule = .expr
  flattened : Token.flattenAll expr.inner = tokens source
  laid : Laid expr.start expr.stop expr.inner
  start : expr.start = ((tokens source).head?.map Pair.start).getD source.length
  stop : expr.stop = ((tokens source).getLast?.map Pair.stop).getD source.length

theorem restores_of_parse {source : Source} {expr : Token} (h : source.parse = .ok expr) :
    source.Restores expr := by
  have hrules : ∀ token ∈ tokens source, token.rule ≠ .expr := fun _ => rule_ne_expr_of_mem_tokens
  have hnests := nests_of_parse h
  have hspan : Laid expr.start expr.stop expr.inner ∧
      expr.start = (expr.inner.head?.map Pair.start).getD source.length ∧
      expr.stop = (expr.inner.getLast?.map Pair.stop).getD source.length := by
    obtain ⟨opened, -, hclose⟩ := bind_eq_ok.1 h
    obtain ⟨first, last, hfirst, hlast, hstart, hstop⟩ | ⟨hinner, hstart, hstop⟩ :=
      span_of_close hclose
    · rw [hstart, hstop, hfirst, hlast]
      exact ⟨(laid_of_parse h).of_ends hfirst hlast, rfl, rfl⟩
    · rw [hstart, hstop, hinner]
      exact ⟨.nil le_rfl, rfl, rfl⟩
  obtain ⟨hlaid, hstart, hstop⟩ := hspan
  rw [start_head_of_nests hnests] at hstart
  rw [stop_getLast_of_nests hnests] at hstop
  exact ⟨rule_of_parse h, flattenAll_of_nests hnests hrules fun _ => isChar_of_mem_tokens, hlaid,
    hstart, hstop⟩

/-- Whether lines are written or not, the expression of a source is refused at the first token that
cannot be read: one that is invalid, or closes a parenthesis where none is open. If there is none, then
it is refused at the last parenthesis that is never closed. If all are closed, then the expression is
found, and gives the tokens back. -/
theorem parse_verdict (source : Source) (verbose : Bool) (log : Log) :
    let result := ((source.expression verbose).run.run log).1
    (¬ Readable (tokens source) → ∃ before token after reason,
      tokens source = before ++ token :: after ∧ Readable before ∧ Refused before token reason ∧
        Refuses result ⟨"CalcError", reason, token⟩) ∧
    (Readable (tokens source) → HasOpen (tokens source) → ∃ before opening after,
      tokens source = before ++ opening :: after ∧ Unclosed opening after ∧ ¬ HasOpen after ∧
        Refuses result ⟨"CalcError", "unclosed parenthesis", opening⟩) ∧
    (Readable (tokens source) → ¬ HasOpen (tokens source) →
      ∃ expr, result = .ok expr ∧ source.Restores expr) := by
  have hrules : ∀ token ∈ tokens source, token.rule ≠ .expr := fun _ => rule_ne_expr_of_mem_tokens
  dsimp only
  rw [run_expression]
  refine ⟨fun h => ?refused, fun h hopen => ?unclosed, fun h hopen => ?restored⟩
  case refused =>
    obtain ⟨before, token, after, reason, htokens, hbefore, hrefused⟩ := exists_first_refused h
    refine ⟨before, token, after, reason, htokens, hbefore, hrefused, ?_⟩
    rw [htokens] at hrules
    obtain ⟨fault, hfault, hsays⟩ :=
      foldlM_push_of_refused after hbefore (List.forall_mem_append.1 hrules).1 hrefused
    refine ⟨fault, ?_, hsays⟩
    rw [Source.parse, htokens, hfault]
    rfl
  case unclosed =>
    obtain ⟨⟨outer, items⟩, hread, hspells⟩ := exists_foldlM_push_of_readable h hrules
    have houter := (hasOpen_iff_of_spells hspells).1 hopen
    obtain ⟨⟨opening, before⟩, outer, rfl⟩ := List.exists_cons_of_ne_nil houter
    obtain ⟨front, after, htokens, hunclosed, hafter⟩ := exists_unclosed_of_spells hspells
    refine ⟨front, opening, after, htokens, hunclosed, hafter, .unclosedOpen (some opening), ?_, rfl,
      rfl, rfl⟩
    rw [Source.parse, hread]
    rfl
  case restored =>
    obtain ⟨⟨outer, items⟩, hread, hspells⟩ := exists_foldlM_push_of_readable h hrules
    obtain rfl : outer = [] := by simpa [hasOpen_iff_of_spells hspells] using hopen
    obtain ⟨start, stop, hclose⟩ := close_nil source.length items
    have hparse : source.parse = .ok (.mk .expr start stop items.reverse) := by
      rw [Source.parse, hread]
      exact hclose
    exact ⟨_, hparse, restores_of_parse hparse⟩

end Precedence
