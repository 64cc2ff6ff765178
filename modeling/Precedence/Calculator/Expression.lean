import Precedence.Calculator.Fault

/-!
# Expressions

Reading the tokens of a source puts what stands between parentheses into an expression of its own,
which spans the parentheses. The whole text becomes one expression.

## Main definitions

- `Frame` — an open parenthesis, and the pairs read since
- `Frame.push` — read a token
- `Frame.close` — the expression of the whole text
- `Source.expression` — the expression of a source, with a line written about every token

## Design notes

The frames that are open are a list with the innermost first. The outermost frame stands for the whole
text, and has no parenthesis. A stack without frames, or one with two frames of which the inner one
has no parenthesis, is a fault; neither is ever built.
-/

namespace Precedence

/-- What has been read since a parenthesis, or since the start of the text if there is none. The last
pair of `items` is the first that was read. -/
structure Frame where
  opening? : Option Token
  items : List Token
deriving Repr

namespace Frame

/-- The frames before the first token: nothing has been read. -/
def initial : List Frame :=
  [⟨none, []⟩]

/-- Put a pair into the innermost frame. -/
def append (pair : Token) : List Frame → Except (CalcFault Token) (List Frame)
  | [] => .error .noFrame
  | frame :: outer => .ok ({ frame with items := pair :: frame.items } :: outer)

/-- Read a token. -/
def push (frames : List Frame) (token : Token) : Except (CalcFault Token) (List Frame) :=
  match token.rule with
  | .invalid => .error (.invalidToken token)
  | .parenOpen => .ok (⟨some token, []⟩ :: frames)
  | .parenClose =>
    if frames.length = 1 then .error (.unmatchedClose token)
    else
      match frames with
      | [] => .error .noFrame
      | ⟨none, _⟩ :: _ => .error .notOpened
      | ⟨some opening, items⟩ :: outer =>
        append (.mk .expr opening.start token.stop items.reverse) outer
  | _ => append token frames

/-- The expression of the whole text, whose length is `size`. Without tokens it stands at the end. -/
def close (size : Nat) : List Frame → Except (CalcFault Token) Token
  | [] => .error .noFrame
  | [⟨_, items⟩] =>
    let inner := items.reverse
    match inner.head?, items.head? with
    | some first, some last => .ok (.mk .expr first.start last.stop inner)
    | _, _ => .ok (.mk .expr size size inner)
  | ⟨opening?, _⟩ :: _ :: _ => .error (.unclosedOpen opening?)

end Frame

/-- The lines that have been written. -/
abbrev Log := List String

/-- An action of the calculator, which writes lines and may fail. -/
abbrev CalcM (α : Type) := Act Log (CalcFault Token) α

/-- Write a line if `verbose` is set. -/
def say (verbose : Bool) (line : String) : StateM Log Unit :=
  if verbose then modify (· ++ [line]) else pure ()

/-- What is written about a token. -/
def Source.tokenLine (source : Source) (token : Token) : String :=
  "calc: " ++ token.plain ++ ": " ++ quoted (source.tokenText token)

/-- Read a list of tokens, and write a line about each. -/
def Source.readTokens (source : Source) (verbose : Bool) (frames : List Frame) :
    List Token → CalcM (List Frame)
  | [] => pure frames
  | token :: rest => do
    say verbose (source.tokenLine token)
    match Frame.push frames token with
    | .error fault => throw fault
    | .ok frames => source.readTokens verbose frames rest

/-- The expression of a source. A fault of lexing comes to light once the tokens before it have been
read. -/
def Source.expression (source : Source) (verbose : Bool) : CalcM Token := do
  let frames ← source.readTokens verbose Frame.initial (tokens source)
  match source.lexing.fault with
  | some fault => throw (.lexing (fault.map Kind.name))
  | none =>
    match Frame.close source.length frames with
    | .error fault => throw fault
    | .ok expr => pure expr

end Precedence
