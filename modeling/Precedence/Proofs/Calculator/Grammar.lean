import Mathlib
import Precedence.Calculator.Token
import Precedence.Proofs.Bracketing
import Precedence.Tree

/-!
# The grammar of arithmetic expressions

Sums group from the left, and so do products; powers group from the right. What stands between
parentheses is a sum of its own.

## Main definitions

- `Symbol` — the symbols of the grammar
- `Derives` — the token lists that a symbol derives, each with its tree
- `Op.level`, `Op.symbol` — the level of an operator, and the symbol whose trees it stands in

## Main statements

- `find?_table_eq_some_iff` — the table gives every operator its level
- `Derives.weaken` — a symbol derives what the tighter symbols derive
- `Derives.ofOp` — an operator between two sides

## Design notes

The trees are made from the texts of numbers and operators; parentheses leave no trace in them.
-/

namespace Precedence

/-- The symbols of the grammar. -/
inductive Symbol where
  | sum
  | prod
  | pow
  | atom
deriving Repr, DecidableEq

/-- The token lists that a symbol derives, each with its tree. -/
inductive Derives (text : Token → String) : Symbol → List Token → Tree String → Prop
  | sum {left right op o a b} (hleft : Derives text .sum left a) (hop : op.rule = .op o)
      (ho : o = .plus ∨ o = .minus) (hright : Derives text .prod right b) :
      Derives text .sum (left ++ op :: right) (.node (text op) a b)
  | sumOfProd {tokens a} (h : Derives text .prod tokens a) : Derives text .sum tokens a
  | prod {left right op o a b} (hleft : Derives text .prod left a) (hop : op.rule = .op o)
      (ho : o = .times ∨ o = .divide ∨ o = .modulo) (hright : Derives text .pow right b) :
      Derives text .prod (left ++ op :: right) (.node (text op) a b)
  | prodOfPow {tokens a} (h : Derives text .pow tokens a) : Derives text .prod tokens a
  | pow {left right op a b} (hleft : Derives text .atom left a) (hop : op.rule = .op .power)
      (hright : Derives text .pow right b) :
      Derives text .pow (left ++ op :: right) (.node (text op) a b)
  | powOfAtom {tokens a} (h : Derives text .atom tokens a) : Derives text .pow tokens a
  | num {token} (h : token.rule = .num) : Derives text .atom [token] (.leaf (text token))
  | parens {opening tokens closing a} (hopening : opening.rule = .parenOpen)
      (h : Derives text .sum tokens a) (hclosing : closing.rule = .parenClose) :
      Derives text .atom (opening :: (tokens ++ [closing])) a

/-! ### Operators and symbols -/

/-- The level of an operator. -/
def Op.level : Op → Level
  | .plus | .minus => ⟨1, .left⟩
  | .times | .divide | .modulo => ⟨2, .left⟩
  | .power => ⟨3, .right⟩

/-- The table gives every operator its level, and nothing else. -/
theorem find?_table_eq_some_iff {kind : Kind} {level : Level} :
    Kind.table.find? kind = some level ↔ ∃ o : Op, kind = .op o ∧ o.level = level := by
  cases kind with
  | op o =>
    simp only [Kind.op.injEq, exists_eq_left']
    cases o <;> exact Option.some_inj
  | _ => exact ⟨nofun, nofun⟩

/-- How tightly a symbol binds: the trees of an operator of some precedence stand in the symbol whose
rank is that precedence. -/
def Symbol.rank : Symbol → Nat
  | sum => 1
  | prod => 2
  | pow => 3
  | atom => 4

/-- The next tighter symbol. -/
def Symbol.next : Symbol → Symbol
  | sum => prod
  | prod => pow
  | pow => atom
  | atom => atom

/-- The symbol whose trees an operator stands in. -/
def Op.symbol : Op → Symbol
  | .plus | .minus => .sum
  | .times | .divide | .modulo => .prod
  | .power => .pow

@[simp] theorem Op.rank_symbol (o : Op) : o.symbol.rank = o.level.prec := by
  cases o <;> rfl

@[simp] theorem Op.rank_symbol_next (o : Op) : o.symbol.next.rank = o.level.prec + 1 := by
  cases o <;> rfl

/-- Operators of the same precedence are of the same associativity. -/
theorem Op.assoc_eq {o p : Op} (h : o.level.prec = p.level.prec) :
    o.level.assoc = p.level.assoc := by
  revert h
  cases o <;> cases p <;> decide

variable {text : Token → String}

theorem Derives.ofNext {s : Symbol} {tokens : List Token} {t : Tree String}
    (h : Derives text s.next tokens t) : Derives text s tokens t := by
  cases s with
  | sum => exact .sumOfProd h
  | prod => exact .prodOfPow h
  | pow => exact .powOfAtom h
  | atom => exact h

/-- A symbol derives what the tighter symbols derive. -/
theorem Derives.weaken {s s' : Symbol} {tokens : List Token} {t : Tree String}
    (h : s.rank ≤ s'.rank) (hd : Derives text s' tokens t) : Derives text s tokens t := by
  have hsteps : s' = s ∨ s' = s.next ∨ s' = s.next.next ∨ s' = s.next.next.next := by
    revert h
    cases s <;> cases s' <;> decide
  rcases hsteps with rfl | rfl | rfl | rfl
  · exact hd
  · exact hd.ofNext
  · exact hd.ofNext.ofNext
  · exact hd.ofNext.ofNext.ofNext

/-- An operator between two sides: the side that it groups to may hold operators of its own
precedence, and the other side may not. -/
theorem Derives.ofOp {op : Token} {o : Op} {left right : List Token} {a b : Tree String}
    (hop : op.rule = .op o)
    (hleft : Derives text (if o.level.assoc = .left then o.symbol else o.symbol.next) left a)
    (hright : Derives text (if o.level.assoc = .left then o.symbol.next else o.symbol) right b) :
    Derives text o.symbol (left ++ op :: right) (.node (text op) a b) := by
  cases o with
  | plus => exact .sum hleft hop (Or.inl rfl) hright
  | minus => exact .sum hleft hop (Or.inr rfl) hright
  | times => exact .prod hleft hop (Or.inl rfl) hright
  | divide => exact .prod hleft hop (Or.inr (Or.inl rfl)) hright
  | modulo => exact .prod hleft hop (Or.inr (Or.inr rfl)) hright
  | power => exact .pow hleft hop hright

end Precedence
