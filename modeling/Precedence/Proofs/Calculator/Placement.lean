import Mathlib
import Precedence.Proofs.Calculator.Parentheses
import Precedence.Proofs.Covering
import Precedence.Proofs.Outcome

/-!
# Where the pairs of a source stand

The tokens of a source stand one after the other in its text. So do the pairs that they nest into, and
the inner pairs of an expression stand between its parentheses.

## Main definitions

- `Laid` — pairs that stand one after the other, with inner pairs that stand inside
- `Source.Holds` — a pair whose span lies within the text

## Main statements

- `laid_tokens` — the tokens of a source stand one after the other
- `laid_of_nests` — so do the pairs that tokens nest into
- `exists_mem_of_parse` — a complaint about an expression names one of the tokens
- `laid_of_parse`, `holds_of_parse` — where an expression and its inner pairs stand
-/

namespace Precedence

/-- The pairs stand one after the other between two positions. A token covers some text and has no
inner pairs; the inner pairs of an expression stand after its first character and before its last. -/
inductive Laid : Int → Int → List Token → Prop
  | nil {first last : Int} (hle : first ≤ last) : Laid first last []
  | token {first last : Int} {token : Token} {pairs : List Token} (hfirst : first ≤ token.start)
      (hlt : token.start < token.stop) (hinner : token.inner = [])
      (hrest : Laid token.stop last pairs) : Laid first last (token :: pairs)
  | expr {first last : Int} {pair : Token} {pairs : List Token} (hfirst : first ≤ pair.start)
      (hinner : Laid (pair.start + 1) (pair.stop - 1) pair.inner)
      (hrest : Laid pair.stop last pairs) : Laid first last (pair :: pairs)

namespace Laid

variable {first last : Int} {pair : Token} {pairs : List Token}

theorem le (h : Laid first last pairs) : first ≤ last := by
  induction h with
  | nil hle => exact hle
  | token hfirst hlt _ _ ih => omega
  | expr hfirst _ _ ihInner ihRest => omega

/-- The first of the pairs, and those after it. -/
theorem of_cons (h : Laid first last (pair :: pairs)) :
    first ≤ pair.start ∧ pair.start < pair.stop ∧ Laid pair.stop last pairs := by
  cases h with
  | token hfirst hlt _ hrest => exact ⟨hfirst, hlt, hrest⟩
  | expr hfirst hinner hrest =>
    have hle := hinner.le
    exact ⟨hfirst, by omega, hrest⟩

/-- Pairs that stand in a range stand in a wider one. -/
theorem mono {first' last' : Int} (h : Laid first last pairs) (hfirst : first' ≤ first)
    (hlast : last ≤ last') : Laid first' last' pairs := by
  induction h generalizing first' with
  | nil hle => exact .nil (by omega)
  | token hle hlt hinner _ ih => exact .token (by omega) hlt hinner (ih le_rfl hlast)
  | expr hle hinner _ _ ih => exact .expr (by omega) hinner (ih le_rfl hlast)

/-- Of two lists of pairs, the second stands after the first. -/
theorem exists_append {others : List Token} (h : Laid first last (pairs ++ others)) :
    ∃ middle, Laid first middle pairs ∧ Laid middle last others := by
  induction pairs generalizing first with
  | nil => exact ⟨first, .nil le_rfl, h⟩
  | cons pair pairs ih =>
    cases h with
    | token hfirst hlt hinner hrest =>
      obtain ⟨middle, hpairs, hothers⟩ := ih hrest
      exact ⟨middle, .token hfirst hlt hinner hpairs, hothers⟩
    | expr hfirst hinner hrest =>
      obtain ⟨middle, hpairs, hothers⟩ := ih hrest
      exact ⟨middle, .expr hfirst hinner hpairs, hothers⟩

/-- Every one of the pairs covers some text of the range. -/
theorem bounds (h : Laid first last pairs) :
    ∀ pair ∈ pairs, first ≤ pair.start ∧ pair.start < pair.stop ∧ pair.stop ≤ last := by
  induction pairs generalizing first with
  | nil => exact nofun
  | cons pair pairs ih =>
    obtain ⟨hfirst, hlt, hrest⟩ := h.of_cons
    have hle := hrest.le
    refine List.forall_mem_cons.2 ⟨⟨hfirst, hlt, hle⟩, fun other hother => ?_⟩
    obtain ⟨hstart, hother⟩ := ih hrest other hother
    exact ⟨by omega, hother⟩

/-- The inner pairs of every one of the pairs stand inside it. -/
theorem inner (h : Laid first last pairs) :
    ∀ pair ∈ pairs, Laid pair.start pair.stop pair.inner := by
  induction h with
  | nil => exact nofun
  | token _ hlt hinner _ ih =>
    refine List.forall_mem_cons.2 ⟨?_, ih⟩
    rw [hinner]
    exact .nil hlt.le
  | expr _ hinner _ _ ih =>
    exact List.forall_mem_cons.2 ⟨hinner.mono (by omega) (by omega), ih⟩

/-- The first of the pairs starts before the last one ends. -/
theorem start_le_stop {a b : Token} (h : Laid first last pairs) (ha : pairs.head? = some a)
    (hb : pairs.getLast? = some b) : a.start ≤ b.stop := by
  obtain ⟨rest, rfl⟩ := List.head?_eq_some_iff.1 ha
  obtain ⟨-, hlt, hrest⟩ := h.of_cons
  rcases List.mem_cons.1 (List.mem_of_getLast? hb) with rfl | hmem
  · exact hlt.le
  · have hbounds := hrest.bounds b hmem
    omega

end Laid

/-- The pairs that tokens nest into stand one after the other as the tokens do. -/
theorem laid_of_nests {tokens pairs : List Token} (h : Nests tokens pairs) {first last : Int}
    (hlaid : Laid first last tokens) : Laid first last pairs := by
  induction h generalizing first last with
  | nil => exact hlaid
  | plain _ _ ih =>
    cases hlaid with
    | token hfirst hlt hinner hrest => exact .token hfirst hlt hinner (ih hrest)
    | expr hfirst hinner hrest => exact .expr hfirst hinner (ih hrest)
  | @parens opening inside inner closing tokens pairs _ _ _ _ ihInside ih =>
    obtain ⟨hfirst, hopening, hlaid⟩ := hlaid.of_cons
    obtain ⟨middle, hinside, hlaid⟩ := hlaid.exists_append
    obtain ⟨hmiddle, hclosing, hrest⟩ := hlaid.of_cons
    -- Both parentheses cover some text, and what is between them stands outside of that.
    have hinner : Laid (opening.start + 1) (closing.stop - 1) inner :=
      (ihInside hinside).mono (by omega) (by omega)
    exact .expr hfirst hinner (ih hrest)

/-! ### Tokens -/

theorem laid_filter_of_tiles {start stop : Nat} {tokens : List Token} (h : Tiles start stop tokens)
    (keep : Token → Bool) : Laid start stop (tokens.filter keep) := by
  induction h with
  | nil pos => exact .nil le_rfl
  | @cons kind start middle stop tokens hlt _ ih =>
    -- A token that is left out leaves a gap before the next one.
    rw [List.filter_cons]
    split
    · exact .token le_rfl (Int.ofNat_lt.2 hlt) rfl ih
    · exact ih.mono (Int.ofNat_le.2 hlt.le) le_rfl

/-- The tokens of a source stand one after the other in its text. -/
theorem laid_tokens (source : Source) : Laid 0 source.length (tokens source) := by
  obtain ⟨reached, hreached, htiles, -⟩ := exists_tiles_lex Kind.lexer (Nat.zero_le source.length)
    (le_refl source.text.size)
  rw [tokens, Source.lexing, Lexer.lexDropping_eq_without]
  exact (laid_filter_of_tiles htiles _).mono le_rfl (Int.ofNat_le.2 hreached)

/-! ### Expressions -/

/-- The span of a pair lies within the text. -/
structure Source.Holds (source : Source) (pair : Token) : Prop where
  start : 0 ≤ pair.start
  le : pair.start ≤ pair.stop
  stop : pair.stop ≤ source.length

theorem Laid.holds {source : Source} {pairs : List Token} (h : Laid 0 source.length pairs) :
    ∀ pair ∈ pairs, source.Holds pair := by
  intro pair hpair
  obtain ⟨hstart, hlt, hstop⟩ := h.bounds pair hpair
  exact ⟨hstart, hlt.le, hstop⟩

/-- A token that cannot be read is the one that the complaint names. -/
theorem about?_of_push {expr : OpenExpr} {token : Token} {fault : CalcFault Token}
    (h : expr.push token = .error fault) : fault.about? = some token := by
  rw [OpenExpr.push] at h
  split at h
  · cases h
    rfl
  · cases h
  · split at h
    · cases h
      rfl
    · cases h
  · cases h

theorem exists_mem_of_foldlM_push {tokens : List Token} {expr : OpenExpr} {fault : CalcFault Token}
    (h : tokens.foldlM OpenExpr.push expr = .error fault) :
    ∃ token ∈ tokens, fault.about? = some token := by
  induction tokens generalizing expr with
  | nil => exact nomatch h
  | cons token tokens ih =>
    rw [List.foldlM_cons] at h
    cases hpush : expr.push token with
    | error e =>
      rw [hpush] at h
      obtain rfl : e = fault := Except.error.inj h
      exact ⟨token, List.mem_cons_self, about?_of_push hpush⟩
    | ok next =>
      rw [hpush] at h
      obtain ⟨other, hother, habout⟩ := ih h
      exact ⟨other, List.mem_cons_of_mem _ hother, habout⟩

variable {source : Source}

/-- If the tokens of a source make no expression, then the complaint names one of them. -/
theorem exists_mem_of_parse {fault : CalcFault Token} (h : source.parse = .error fault) :
    ∃ token ∈ tokens source, fault.about? = some token := by
  rw [Source.parse] at h
  -- Either a token is refused while it is read, or the end of the text is.
  cases hread : (tokens source).foldlM OpenExpr.push .empty with
  | error e =>
    rw [hread] at h
    obtain rfl : e = fault := Except.error.inj h
    exact exists_mem_of_foldlM_push hread
  | ok expr =>
    have hspells := foldlM_push_spells hread (fun _ => rule_ne_expr_of_mem_tokens) .nil
    obtain ⟨outer, items⟩ := expr
    rw [hread] at h
    cases outer with
    | nil =>
      obtain ⟨start, stop, hclose⟩ := close_nil source.length items
      cases hclose.symm.trans h
    | cons opened outer =>
      -- The parenthesis that is left open has been read.
      obtain ⟨front, inside, hread, -, -, -⟩ := hspells
      cases h
      refine ⟨opened.1, ?_, rfl⟩
      rw [← List.nil_append (tokens source), hread]
      simp

/-- The inner pairs of the expression of a source stand one after the other in its text. -/
theorem laid_of_parse {expr : Token} (h : source.parse = .ok expr) :
    Laid 0 source.length expr.inner :=
  laid_of_nests (nests_of_parse h) (laid_tokens source)

theorem rule_of_parse {expr : Token} (h : source.parse = .ok expr) : expr.rule = .expr := by
  obtain ⟨⟨outer, items⟩, -, hclose⟩ := bind_eq_ok.1 h
  obtain ⟨rfl, -⟩ : outer = [] ∧ _ := close_eq_ok hclose
  obtain ⟨start, stop, hexpr⟩ := close_nil source.length items
  rw [hexpr] at hclose
  cases hclose
  rfl

/-- An expression starts where its first inner pair does, and ends where the last one does; without
inner pairs it stands at the end of the text. -/
theorem span_of_close {size : Nat} {opened : OpenExpr} {expr : Token}
    (h : opened.close size = .ok expr) :
    (∃ first last, expr.inner.head? = some first ∧ expr.inner.getLast? = some last ∧
        expr.start = first.start ∧ expr.stop = last.stop) ∨
      expr.inner = [] ∧ expr.start = size ∧ expr.stop = size := by
  obtain ⟨outer, items⟩ := opened
  cases outer with
  | cons opened outer => cases h
  | nil =>
    cases items with
    | nil =>
      cases h
      exact Or.inr ⟨rfl, rfl, rfl⟩
    | cons last items =>
      have hlast : (last :: items).reverse.getLast? = some last := by
        rw [List.getLast?_reverse, List.head?_cons]
      obtain ⟨first, hfirst⟩ : ∃ first, (last :: items).reverse.head? = some first :=
        Option.ne_none_iff_exists'.1 (by simp)
      simp only [OpenExpr.close, hfirst, List.head?_cons, Except.ok.injEq] at h
      subst h
      exact Or.inl ⟨first, last, hfirst, hlast, rfl, rfl⟩

/-- The expression of a source lies within its text. -/
theorem holds_of_parse {expr : Token} (h : source.parse = .ok expr) : source.Holds expr := by
  have hlaid := laid_of_parse h
  obtain ⟨opened, -, hclose⟩ := bind_eq_ok.1 h
  rcases span_of_close hclose with ⟨first, last, hfirst, hlast, hstart, hstop⟩ | ⟨-, hstart, hstop⟩
  · have hheldFirst := hlaid.holds first (List.mem_of_head? hfirst)
    have hheldLast := hlaid.holds last (List.mem_of_getLast? hlast)
    have hle := hlaid.start_le_stop hfirst hlast
    refine ⟨?_, ?_, ?_⟩
    · rw [hstart]
      exact hheldFirst.start
    · rw [hstart, hstop]
      exact hle
    · rw [hstop]
      exact hheldLast.stop
  · exact ⟨by omega, by omega, by omega⟩

end Precedence
