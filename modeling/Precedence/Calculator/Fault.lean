import Precedence.Calculator.Token
import Precedence.Lexer.Definition
import Precedence.Number.Arithmetic

/-!
# Faults of arithmetic expressions

## Main definitions

- `CalcFault` — why an expression has no value, about pairs of any type
- `CalcFault.reason`, `CalcFault.about?` — the wording, and the pair that is at fault
- `CalcFault.toFault` — the fault as an exception
- `Number.parse` — a text as a number, or an exception
-/

namespace Precedence

/-- Why a text is no arithmetic expression, or why the expression has no value. The faults from
`notANumber` on are complaints of the parts that the calculator is made of, and name no pair. -/
inductive CalcFault (τ : Type) where
  | invalidToken (token : τ)
  | unmatchedClose (close : τ)
  | unclosedOpen (opening? : Option τ)
  | emptyExpression (expr : τ)
  | expectedOperand (pair : τ)
  | expectedOperator (pair : τ)
  | missingOperand (op : τ)
  | arithmetic (fault : ArithmeticFault) (op : τ)
  | notANumber (text : String)
  | notAnOperator (pair : τ)
  | emptyInput
  | lexing (fault : LexFault String)
  | notOpened
  | noFrame
deriving Repr

namespace CalcFault

variable {τ τ' : Type}

/-- The class of a fault. -/
def className : CalcFault τ → String
  | expectedOperator _ => "ExcessPair"
  | missingOperand _ => "MissingOperand"
  | notANumber _ => "ValueError"
  | notAnOperator _ => "ValueError"
  | emptyInput => "EmptyInput"
  | lexing fault => fault.toFault.className
  | notOpened => "AssertionError"
  | noFrame => "IndexError"
  | _ => "CalcError"

/-- The wording of a fault, without the pair. -/
def reason : CalcFault τ → String
  | invalidToken _ => "invalid token"
  | unmatchedClose _ => "unmatched closing parenthesis"
  | unclosedOpen _ => "unclosed parenthesis"
  | emptyExpression _ => "empty expression"
  | expectedOperand _ => "expected a number or parenthesized expression"
  | expectedOperator _ => "expected an operator"
  | missingOperand _ => "infix operator must be followed by a primary expression"
  | arithmetic fault _ => fault.message
  | notANumber text => "could not convert string to float: " ++ quoted text
  | notAnOperator _ => ""
  | emptyInput => "precedence climbing requires a non-empty sequence of pairs"
  | lexing fault => fault.toFault.message
  | notOpened => ""
  | noFrame => "list index out of range"

/-- The pair that is at fault. -/
def about? : CalcFault τ → Option τ
  | invalidToken p => some p
  | unmatchedClose p => some p
  | unclosedOpen p? => p?
  | emptyExpression p => some p
  | expectedOperand p => some p
  | expectedOperator p => some p
  | missingOperand p => some p
  | arithmetic _ p => some p
  | _ => none

/-- A fault as an exception; `toPair` is how a pair is shown as one of values. -/
def toFault (toPair : τ → ValuePair) (fault : CalcFault τ) : Fault :=
  match fault with
  | notANumber _ | noFrame => .ofMessage fault.className fault.reason
  | notAnOperator p => ⟨fault.className, [.pair (toPair p)]⟩
  | lexing fault => fault.toFault
  | notOpened => ⟨fault.className, []⟩
  | _ =>
    let about := match fault.about? with
      | some p => .pair (toPair p)
      | none => .nothing
    ⟨fault.className, [.text fault.reason, about]⟩

end CalcFault

/-- A text as a number. -/
def Number.parse (text : String) : Except (CalcFault Token) Number :=
  match Number.read? text with
  | some n => .ok n
  | none => .error (.notANumber text)

end Precedence
