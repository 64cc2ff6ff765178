import Mathlib
import Precedence.Calculator.Expression
import Precedence.Proofs.Lines
import Precedence.Proofs.Numerals

/-!
# The tokens of a source

## Main definitions

- `Source.Lexed` — a token whose text fits its kind

## Main statements

- `fault_lex_source` — the whole text of a source is divided into tokens
- `lexed_of_mem_tokens` — the text of every token fits its kind
-/

namespace Precedence

/-! ### The text of a span -/

theorem take_drop_of_has {text : Array Char} {last pos : Nat} {xs : List Char}
    (h : Subject.Has ⟨text, last⟩ pos xs) : (text.toList.drop pos).take xs.length = xs := by
  induction xs generalizing pos with
  | nil => rfl
  | cons c xs ih =>
    obtain ⟨hc, hxs⟩ := h
    rw [Subject.get?] at hc
    split at hc
    next =>
      rw [← Array.getElem?_toList] at hc
      obtain ⟨hpos, hget⟩ := List.getElem?_eq_some_iff.1 hc
      have hdrop : text.toList.drop pos = c :: text.toList.drop (pos + 1) := by
        rw [List.drop_eq_getElem_cons hpos, hget]
      rw [hdrop, List.length_cons, List.take_succ_cons, ih hxs]
    · cases hc

/-- A text that stands at a position is the slice of its span. -/
theorem slice_of_has {source : Source} {last start : Nat} {xs : List Char}
    (h : Subject.Has ⟨source.text, last⟩ start xs) :
    source.slice (.index start) (.index ((start + xs.length : Nat) : Int)) = xs := by
  have htext := take_drop_of_has h
  have hlength : xs.length ≤ source.text.size - start := by
    have hsize : source.text.toList.length = source.text.size := Array.length_toList
    have := congrArg List.length htext
    rw [List.length_take, List.length_drop, hsize] at this
    omega
  have hslice : source.slice (.index start) (.index ((start + xs.length : Nat) : Int)) =
      (source.text.toList.drop (min start source.length)).take
        (min (start + xs.length) source.length - min start source.length) := by
    simp only [Source.slice, Bound.index?, Option.getD_some, clamp_natCast, Source.extract,
      Array.toList_extract, List.extract_eq_take_drop]
  rw [hslice, Source.length]
  -- An empty text stands at any position, even at one beyond the end.
  by_cases hxs : xs = []
  · subst hxs
    rw [List.length_nil, Nat.add_zero, Nat.sub_self, List.take_zero]
  · have hpos := List.length_pos_iff.2 hxs
    rw [Nat.min_eq_left (by omega), Nat.min_eq_left (by omega), Nat.add_sub_cancel_left, htext]

/-! ### The kinds of tokens -/

/-- The text of a token fits its kind: that of an operator is its character, and that of a number can
be read. No token is an expression, and none has inner pairs. -/
structure Source.Lexed (source : Source) (token : Token) : Prop where
  op : ∀ o, token.rule = .op o → source.tokenText token = String.ofList [o.char]
  num : token.rule = .num → ∃ n, Number.parse (source.tokenText token) = .ok n
  rule_ne_expr : token.rule ≠ .expr
  inner : token.inner = []

theorem isRegular_of_mem_patterns : ∀ entry ∈ Kind.patterns, entry.2.isRegular := by
  decide

/-- The texts of operators and numbers. -/
theorem text_of_mem_patterns {kind : Kind} {pattern : Pattern} {xs : List Char}
    (h : (kind, pattern) ∈ Kind.patterns) (hxs : pattern.Accepts xs) :
    (∀ o, kind = .op o → xs = [o.char]) ∧ (kind = .num → IsNumeral xs) ∧ kind ≠ .expr := by
  have hop : ∀ o, pattern = (Kind.ofOp o).2 → xs = [o.char] := by
    rintro o rfl
    obtain ⟨c, hc, rfl⟩ := accepts_char hxs
    rw [CharSet.contains_ofChar, beq_iff_eq] at hc
    rw [hc]
  have hnum : pattern = Kind.number → IsNumeral xs := by
    rintro rfl
    exact isNumeral_of_accepts hxs
  have hkind : (∀ o, kind = .op o → pattern = (Kind.ofOp o).2) ∧
      (kind = .num → pattern = Kind.number) ∧ kind ≠ .expr := by
    simp only [Kind.patterns, Kind.ofOp, List.mem_cons, Prod.mk.injEq, List.not_mem_nil,
      or_false] at h
    rcases h with ⟨rfl, rfl⟩ | ⟨rfl, rfl⟩ | ⟨rfl, rfl⟩ | ⟨rfl, rfl⟩ | ⟨rfl, rfl⟩ | ⟨rfl, rfl⟩ |
      ⟨rfl, rfl⟩ | ⟨rfl, rfl⟩ | ⟨rfl, rfl⟩ | ⟨rfl, rfl⟩
    all_goals simp [Kind.ofOp]
  exact ⟨fun o ho => hop o (hkind.1 o ho), fun h => hnum (hkind.2.1 h), hkind.2.2⟩

theorem le_length_of_accepts {greed : Greed} {least : Nat} {most : Option Nat} {set : CharSet}
    {xs : List Char} (h : Pattern.Accepts (.repeat greed least most (.char set)) xs) :
    least ≤ xs.length := by
  cases h with
  | @«repeat» _ _ _ _ pieces hleast _ hpieces =>
    have hpiece : ∀ piece ∈ pieces, List.length piece = 1 := by
      intro piece hmem
      obtain ⟨c, -, rfl⟩ := accepts_char (hpieces piece hmem)
      rfl
    rw [List.length_flatten, List.map_congr_left hpiece, List.map_const', List.sum_replicate]
    simpa using hleast

theorem not_accepts_nil_of_mem_patterns :
    ∀ entry ∈ Kind.patterns, ¬ entry.2.Accepts [] := by
  have hchar : ∀ set : CharSet, ¬ Pattern.Accepts (.char set) [] := by
    intro set h
    obtain ⟨c, -, hnil⟩ := accepts_char h
    exact nomatch hnil
  have hnumber : ¬ Kind.number.Accepts [] := by
    intro h
    obtain ⟨whole, fraction, exponent, hwhole, -, -, hnil⟩ := isNumeral_of_accepts h
    exact hwhole.1 (List.append_eq_nil_iff.1 hnil.symm).1
  simp only [Kind.patterns, Kind.ofOp, List.forall_mem_cons]
  refine ⟨fun h => absurd (le_length_of_accepts h) (by decide), hnumber, ?_⟩
  simp [hchar]

/-- The whole text of a source is divided into tokens and blanks. -/
theorem fault_lex_source (source : Source) :
    (Kind.lexer.lex source.text 0 source.length).fault = none :=
  fault_lex_eq_none (List.cons_ne_nil _ _) isRegular_of_mem_patterns not_accepts_nil_of_mem_patterns
    _ _ _

theorem fault_lexing (source : Source) : source.lexing.fault = none := by
  rw [Source.lexing, Lexer.lexDropping_eq_without]
  exact fault_lex_source source

/-- A token of a source is invalid, or a pattern of its kind accepts its text. -/
theorem exists_accepts_of_mem_tokens {source : Source} {token : Token} (h : token ∈ tokens source) :
    (∃ start stop, token = .leaf .invalid start stop) ∨
      ∃ kind pattern xs, ∃ start : Nat, (kind, pattern) ∈ Kind.patterns ∧ pattern.Accepts xs ∧
        token = .leaf kind start ((start + xs.length : Nat) : Int) ∧
        source.tokenText token = String.ofList xs := by
  rw [tokens, Source.lexing, Lexer.lexDropping_eq_without] at h
  have hmem : token ∈ (Kind.lexer.lex source.text 0 source.length).pairs :=
    List.mem_of_mem_filter h
  have hne : Kind.patterns ≠ [] := nofun
  rcases delivers_of_mem_lex hne isRegular_of_mem_patterns hmem with ⟨start, stop, rfl⟩ | hleaf
  · exact Or.inl ⟨_, _, rfl⟩
  · obtain ⟨kind, pattern, xs, last, start, hentry, hxs, hhas, rfl⟩ := hleaf
    exact Or.inr ⟨kind, pattern, xs, start, hentry, hxs, rfl,
      congrArg String.ofList (slice_of_has hhas)⟩

/-- The text of every token of a source fits its kind. -/
theorem lexed_of_mem_tokens {source : Source} {token : Token} (h : token ∈ tokens source) :
    source.Lexed token := by
  rcases exists_accepts_of_mem_tokens h with
    ⟨start, stop, rfl⟩ | ⟨kind, pattern, xs, start, hentry, hxs, rfl, htext⟩
  · exact ⟨nofun, nofun, nofun, rfl⟩
  · obtain ⟨hop, hnum, hexpr⟩ := text_of_mem_patterns hentry hxs
    refine ⟨fun o ho => ?_, fun hrule => ?_, hexpr, rfl⟩
    · rw [htext, hop o ho]
    · rw [htext]
      exact exists_parse_of_isNumeral (hnum hrule)

/-- No token of a source is an expression. -/
theorem rule_ne_expr_of_mem_tokens {source : Source} {token : Token} (h : token ∈ tokens source) :
    token.rule ≠ .expr :=
  (lexed_of_mem_tokens h).rule_ne_expr

/-- The text of a number in a source is a numeral. -/
theorem isNumeral_of_mem_tokens {source : Source} {token : Token} (h : token ∈ tokens source)
    (hrule : token.rule = .num) : IsNumeral (source.tokenText token).toList := by
  rcases exists_accepts_of_mem_tokens h with
    ⟨start, stop, rfl⟩ | ⟨kind, pattern, xs, start, hentry, hxs, rfl, htext⟩
  · cases hrule
  · rw [htext, String.toList_ofList]
    exact (text_of_mem_patterns hentry hxs).2.1 hrule

end Precedence
