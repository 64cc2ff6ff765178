import Precedence.Climber
import Precedence.Lexer
import Precedence.Source

/-!
# Tokens of arithmetic expressions

An arithmetic expression is written with numbers, six operators and parentheses.

## Main definitions

- `Op` — the operators
- `Kind` — the kinds of tokens, and that of an expression
- `Token` — a pair of such a kind
- `Kind.groups`, `Kind.table` — the precedences of the operators
- `Kind.lexer` — the lexer
- `Source.lexing`, `tokens` — the tokens of a source, without blanks
-/

namespace Precedence

/-- The operators of arithmetic expressions. -/
inductive Op where
  | plus
  | minus
  | times
  | divide
  | modulo
  | power
deriving Repr, DecidableEq, Inhabited

/-- The name of an operator. -/
def Op.name : Op → String
  | plus => "plus"
  | minus => "minus"
  | times => "times"
  | divide => "divide"
  | modulo => "modulo"
  | power => "power"

/-- The character of an operator. -/
def Op.char : Op → Char
  | plus => '+'
  | minus => '-'
  | times => '*'
  | divide => '/'
  | modulo => '%'
  | power => '^'

/-- The kinds of tokens. An expression holds other tokens; text that is no token is invalid. -/
inductive Kind where
  | spaces
  | num
  | op (op : Op)
  | parenOpen
  | parenClose
  | expr
  | invalid
deriving Repr, DecidableEq, Inhabited

/-- A token, or an expression with the tokens nested in it. -/
abbrev Token := Pair Kind Int

namespace Kind

/-- The name of a kind. -/
def name : Kind → String
  | spaces => "spaces"
  | num => "num"
  | op o => o.name
  | parenOpen => "paren_o"
  | parenClose => "paren_c"
  | expr => "expr"
  | invalid => "invalid"

/-- A kind as a rule among values. -/
def toValue (kind : Kind) : Value :=
  .text kind.name

instance : RuleKey Kind := ⟨(· == ·), fun _ => none⟩

/-- The groups of operators: sums, then products, then powers, which group from the right. -/
def groups : List (Group Kind) :=
  [.left [.op .plus, .op .minus],
   .left [.op .times, .op .divide, .op .modulo],
   .right [.op .power]]

/-- The levels of the operators. -/
def table : Table Kind :=
  ⟨Table.levelled 1 groups⟩

/-- The groups define no operator twice. -/
theorem ofGroups_groups : Table.ofGroups false groups = .ok table := rfl

/-- A run of digits. -/
def digits : Pattern :=
  .repeat .greedy 1 none (.char (.ofCategory ⟨.digit, false, false⟩))

/-- A number: digits, then a point with digits, and then an exponent with an optional sign, where
the last two parts may be missing. -/
def number : Pattern :=
  .sequence
    [digits,
     .repeat .greedy 0 (some 1) (.sequence [.char (.ofChar '.'), digits]),
     .repeat .greedy 0 (some 1) (.sequence
       [.char (.ofItems .none false [.single 0x65, .single 0x45]),
        .repeat .greedy 0 (some 1) (.char (.ofItems .none false [.single 0x2b, .single 0x2d])),
        digits])]

/-- The pattern of an operator: its character. -/
def ofOp (o : Op) : Kind × Pattern :=
  (.op o, .char (.ofChar o.char))

/-- The kinds that the lexer tells apart, each with its pattern. -/
def patterns : List (Kind × Pattern) :=
  [(.spaces, .repeat .greedy 1 none (.char (.ofCategory ⟨.blank, false, false⟩))),
   (.num, number),
   ofOp .plus, ofOp .minus, ofOp .times, ofOp .divide, ofOp .modulo, ofOp .power,
   (.parenOpen, .char (.ofChar '(')),
   (.parenClose, .char (.ofChar ')'))]

/-- The lexer of arithmetic expressions. -/
def lexer : Lexer Kind :=
  .ofKinds .invalid patterns

end Kind

namespace Token

/-- A token as a pair of values. -/
def toValuePair (token : Token) : ValuePair :=
  token.map Kind.toValue .index

/-- The plain text of a token: its span and its kind. -/
def plain (token : Token) : String :=
  toString token.start ++ "-" ++ toString token.stop ++ ":" ++ token.rule.name

end Token

/-- The text of a token. -/
def Source.tokenText (source : Source) (token : Token) : String :=
  String.ofList (source.slice (.index token.start) (.index token.stop))

/-- The pairs of a source, without the blanks between them. -/
def Source.lexing (source : Source) : Lexing Kind :=
  Kind.lexer.lexDropping (· == .spaces) source.text 0 source.length

/-- The tokens of a source. -/
def tokens (source : Source) : List Token :=
  source.lexing.pairs

end Precedence
