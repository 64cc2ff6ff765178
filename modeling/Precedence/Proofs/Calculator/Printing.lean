import Mathlib
import Precedence.Proofs.Calculator.Lexing
import Precedence.Proofs.Calculator.Structure

/-!
# Reading printed expressions

An expression may be printed with the parentheses that its tree calls for or with more, and with
blanks between its tokens or without. Reading gives the tree back.

## Main definitions

- `Tree.IsExpression` — the trees with numerals at the leaves and operators at the nodes
- `Rendering` — an expression as it is printed, with its parentheses
- `Rendering.Bracketed` — no parentheses are missing

## Main statements

- `derives_of_shows` — the grammar derives the tokens of a rendering, with the tree of the rendering
- `tree_rendering` — reading undoes printing
-/

namespace Precedence

/-- There are numerals at the leaves of the tree, and operators at its nodes. -/
def Tree.IsExpression : Tree String → Prop
  | leaf text => IsNumeral text.toList
  | node op left right =>
    (∃ o : Op, op = String.ofList [o.char]) ∧ left.IsExpression ∧ right.IsExpression

/-- An expression as it is printed: a number, an operator between its sides, or an expression in
parentheses. -/
inductive Rendering where
  | number (xs : List Char) (h : IsNumeral xs)
  | node (o : Op) (left right : Rendering)
  | parens (inner : Rendering)

namespace Rendering

/-- The tree of a rendering, in which parentheses leave no trace. -/
def tree : Rendering → Tree String
  | number xs _ => .leaf (String.ofList xs)
  | node o left right => .node (String.ofList [o.char]) left.tree right.tree
  | parens inner => inner.tree

/-- The lexemes of a rendering. -/
def lexemes : Rendering → List Lexeme
  | number xs h => [.number xs h]
  | node o left right => left.lexemes ++ .operator o :: right.lexemes
  | parens inner => .opening :: (inner.lexemes ++ [.closing])

/-- The operator at the root, unless it is in parentheses. -/
def top? : Rendering → Option Op
  | node o _ _ => some o
  | _ => none

/-- There are parentheses around every left side whose operator binds more loosely than the operator
that it is a side of, or as tightly if that is a power, and around every right side whose operator
binds more loosely, or as tightly if that groups from the left. -/
def Bracketed : Rendering → Prop
  | number _ _ => True
  | node o left right =>
    (∀ p ∈ left.top?,
      ¬ (p.level.prec < o.level.prec ∨ p.level.prec = o.level.prec ∧ o = .power)) ∧
    (∀ p ∈ right.top?,
      ¬ (p.level.prec < o.level.prec ∨ p.level.prec = o.level.prec ∧ o.level.assoc = .left)) ∧
    left.Bracketed ∧ right.Bracketed
  | parens inner => inner.Bracketed

/-- The tightest symbol that derives a rendering. -/
def symbol (rendering : Rendering) : Symbol :=
  match rendering.top? with
  | none => .atom
  | some o => o.symbol

/-- A side of an operator that no parentheses are missing around binds as tightly as the operator, or
more tightly where `strict` says that it has to. -/
theorem le_rank_symbol {side : Rendering} {o : Op} {strict : Prop} [Decidable strict]
    (h : ∀ p ∈ side.top?,
      ¬ (p.level.prec < o.level.prec ∨ p.level.prec = o.level.prec ∧ strict)) :
    (if strict then o.symbol.next else o.symbol).rank ≤ side.symbol.rank := by
  rw [symbol]
  cases htop : side.top? with
  | none => split <;> cases o <;> decide
  | some p =>
    obtain ⟨hle, hne⟩ := not_or.1 (h p htop)
    rw [Op.rank_symbol]
    split
    next hstrict =>
      have : p.level.prec ≠ o.level.prec := fun heq => hne ⟨heq, hstrict⟩
      rw [Op.rank_symbol_next]
      omega
    next =>
      rw [Op.rank_symbol]
      omega

/-- No numbers stand side by side in a rendering. -/
theorem isChain_lexemes (rendering : Rendering) :
    rendering.lexemes.IsChain Lexeme.Apart := by
  induction rendering with
  | number xs h => exact .singleton _
  | node o left right ihLeft ihRight =>
    have hop : ∀ lexeme, Lexeme.Apart lexeme (.operator o) ∧ Lexeme.Apart (.operator o) lexeme :=
      fun lexeme => ⟨Or.inr nofun, Or.inl nofun⟩
    refine ihLeft.append (ihRight.cons fun lexeme _ => (hop lexeme).2) ?_
    rintro lexeme - next ⟨⟩
    exact (hop lexeme).1
  | parens inner ih =>
    refine List.IsChain.cons (ih.append (.singleton _) ?_) fun lexeme _ => Or.inl nofun
    rintro lexeme - next ⟨⟩
    exact Or.inr nofun

end Rendering

/-- Every expression can be printed. -/
theorem exists_rendering {t : Tree String} (h : t.IsExpression) :
    ∃ rendering : Rendering, rendering.tree = t ∧ rendering.Bracketed := by
  induction t with
  | leaf text =>
    exact ⟨.number text.toList h, congrArg Tree.leaf String.ofList_toList, trivial⟩
  | node op left right ihLeft ihRight =>
    obtain ⟨⟨o, rfl⟩, hleft, hright⟩ := h
    obtain ⟨left, rfl, hbracketedLeft⟩ := ihLeft hleft
    obtain ⟨right, rfl, hbracketedRight⟩ := ihRight hright
    exact ⟨.node o (.parens left) (.parens right), rfl, nofun, nofun, hbracketedLeft,
      hbracketedRight⟩

/-- Tokens that show two lists of lexemes come in two parts. -/
theorem exists_append_of_shows {source : Source} {tokens : List Token} {front back : List Lexeme}
    (h : List.Forall₂ source.Shows tokens (front ++ back)) :
    ∃ left right, tokens = left ++ right ∧ List.Forall₂ source.Shows left front ∧
      List.Forall₂ source.Shows right back :=
  ⟨_, _, (List.take_append_drop front.length tokens).symm,
    List.forall₂_take_append tokens front back h, List.forall₂_drop_append tokens front back h⟩

/-- If no parentheses are missing, the grammar derives the tokens of a rendering with its tree. -/
theorem derives_of_shows {source : Source} {rendering : Rendering} {tokens : List Token}
    (hbracketed : rendering.Bracketed)
    (h : List.Forall₂ source.Shows tokens rendering.lexemes) :
    Derives source.tokenText rendering.symbol tokens rendering.tree := by
  induction rendering generalizing tokens with
  | number xs hxs =>
    obtain ⟨token, rest, ⟨hkind, htext⟩, hrest, rfl⟩ := List.forall₂_cons_right_iff.1 h
    obtain rfl := List.forall₂_nil_right_iff.1 hrest
    rw [Rendering.tree, ← show source.tokenText token = String.ofList xs from htext]
    exact .num hkind
  | node o left right ihLeft ihRight =>
    obtain ⟨hleft, hright, hbracketedLeft, hbracketedRight⟩ := hbracketed
    obtain ⟨front, rest, rfl, hfront, hrest⟩ := exists_append_of_shows h
    obtain ⟨op, back, ⟨hkind, htext⟩, hback, rfl⟩ := List.forall₂_cons_right_iff.1 hrest
    rw [Rendering.tree, ← show source.tokenText op = String.ofList [o.char] from htext]
    -- The side that the operator groups to may bind as tightly as it does.
    have hsides : (if o.level.assoc = .left then o.symbol else o.symbol.next) =
        if o = .power then o.symbol.next else o.symbol := by
      cases o <;> rfl
    refine Derives.ofOp hkind ((ihLeft hbracketedLeft hfront).weaken ?_)
      ((ihRight hbracketedRight hback).weaken (Rendering.le_rank_symbol hright))
    rw [hsides]
    exact Rendering.le_rank_symbol hleft
  | parens inner ih =>
    obtain ⟨opening, rest, ⟨hopening, -⟩, hrest, rfl⟩ := List.forall₂_cons_right_iff.1 h
    obtain ⟨tokens, last, rfl, hinner, hlast⟩ := exists_append_of_shows hrest
    obtain ⟨closing, others, ⟨hclosing, -⟩, hothers, rfl⟩ := List.forall₂_cons_right_iff.1 hlast
    obtain rfl := List.forall₂_nil_right_iff.1 hothers
    exact .parens hopening ((ih hbracketed hinner).weaken (by cases inner.symbol <;> decide))
      hclosing

/-- Reading undoes printing: every expression can be printed, and however that is done, with or
without parentheses and blanks that are not called for, the tree of the text is that of the
expression. -/
theorem tree_rendering {t : Tree String} (ht : t.IsExpression) :
    (∃ rendering : Rendering, rendering.tree = t ∧ rendering.Bracketed) ∧
      ∀ rendering : Rendering, rendering.tree = t → rendering.Bracketed →
        ∀ (name text : String) (firstLine : Int) (verbose : Bool) (log : Log),
          Spaced rendering.lexemes text.toList →
            (((Source.ofString name text firstLine).tree verbose).run.run log).1 = .ok t := by
  refine ⟨exists_rendering ht, ?_⟩
  rintro rendering rfl hbracketed name text firstLine verbose log hspaced
  refine (tree_eq_ok_iff _ verbose log _).2 ?_
  have hshows := shows_tokens (.ofString name text firstLine) hspaced rendering.isChain_lexemes
  exact (derives_of_shows hbracketed hshows).weaken (by cases rendering.symbol <;> decide)

theorem isDigits_of_isDigit {c : Char} (h : isDigit c) : IsDigits [c] :=
  ⟨List.cons_ne_nil c [], List.forall_mem_singleton.2 h⟩

theorem isNumeral_of_isDigit {c : Char} (h : isDigit c) : IsNumeral [c] :=
  ⟨[c], [], [], isDigits_of_isDigit h, Or.inl rfl, Or.inl rfl, rfl⟩

/-- A lexeme without blanks before it. -/
theorem Spaced.next {lexemes : List Lexeme} {xs : List Char} (lexeme : Lexeme)
    (h : Spaced lexemes xs) : Spaced (lexeme :: lexemes) (lexeme.chars ++ xs) :=
  .cons [] lexeme (List.forall_mem_nil _) h

/-- A difference of a difference, whose first number has the sign of an exponent in it, and a power of
a power, which is in parentheses as the left side of a power has to be; the parentheses around the 4
are not called for. -/
theorem tree_rendering_signs :
    let t : Tree String :=
      .node "-" (.node "-" (.leaf "2e-1") (.leaf "3"))
        (.node "^" (.node "^" (.leaf "4") (.leaf "5")) (.leaf "6"))
    t.IsExpression ∧
      (∃ rendering : Rendering, rendering.tree = t ∧ rendering.Bracketed ∧
        Spaced rendering.lexemes "2e-1-3 -((4)^5)^6".toList) ∧
      (((Source.ofString "sums" "2e-1-3 -((4)^5)^6" 1).tree false).run.run []).1 = .ok t := by
  intro t
  have hexponent : IsNumeral ['2', 'e', '-', '1'] :=
    ⟨['2'], [], ['e', '-', '1'], isDigits_of_isDigit (by decide), Or.inl rfl,
      Or.inr ⟨'e', ['-'], ['1'], Or.inl rfl, Or.inr (Or.inr rfl), isDigits_of_isDigit (by decide),
        rfl⟩, rfl⟩
  have h3 : IsNumeral ['3'] := isNumeral_of_isDigit (by decide)
  have h4 : IsNumeral ['4'] := isNumeral_of_isDigit (by decide)
  have h5 : IsNumeral ['5'] := isNumeral_of_isDigit (by decide)
  have h6 : IsNumeral ['6'] := isNumeral_of_isDigit (by decide)
  have ht : t.IsExpression :=
    ⟨⟨.minus, rfl⟩, ⟨⟨.minus, rfl⟩, hexponent, h3⟩, ⟨.power, rfl⟩, ⟨⟨.power, rfl⟩, h4, h5⟩, h6⟩
  let rendering : Rendering :=
    .node .minus (.node .minus (.number _ hexponent) (.number _ h3))
      (.node .power (.parens (.node .power (.parens (.number _ h4)) (.number _ h5)))
        (.number _ h6))
  have hbracketed : rendering.Bracketed := by
    simp [rendering, Rendering.Bracketed, Rendering.top?, Op.level]
  have hspaced : Spaced rendering.lexemes "2e-1-3 -((4)^5)^6".toList :=
    .next (.number _ hexponent) <| .next (.operator .minus) <| .next (.number _ h3) <|
      .cons [' '] _ (List.forall_mem_singleton.2 (by decide)) <| .next .opening <|
        .next .opening <| .next (.number _ h4) <| .next .closing <| .next (.operator .power) <|
          .next (.number _ h5) <| .next .closing <| .next (.operator .power) <|
            .next (.number _ h6) <| .nil (List.forall_mem_nil _)
  exact ⟨ht, ⟨rendering, rfl, hbracketed, hspaced⟩,
    (tree_rendering ht).2 rendering rfl hbracketed "sums" _ 1 false [] hspaced⟩

end Precedence
