import Precedence.Number.Binary64
import Precedence.Text.Blank
import Precedence.Text.Digit

/-!
# Reading numbers

A numeral may be surrounded by blanks and start with a sign; its digits may be those of any script,
and a single underscore may stand between two of them.

## Main definitions

- `readInteger?` — a text as an integer
- `readFloat?` — a text as a float: digits with an optional point and exponent, or a word for an
  infinity or not-a-number

## Design notes

An integer of more than `maxIntegerDigits` digits, leading zeros included, is refused. A decimal is
read exactly and rounded once. Exponents far outside the range of floats are cut off first, so that
no power of ten grows beyond what the rounding needs.
-/

namespace Precedence

/-- The most digits that an integer may be written with, or read from. -/
def maxIntegerDigits : Nat := 4300

/-- The blanks that may surround a numeral: all but the four information separators. -/
def isNumeralBlank (c : Char) : Bool :=
  isBlank c && !(0x1c ≤ c.toNat && c.toNat ≤ 0x1f)

/-- A text without the blanks at both of its ends. -/
def trimNumeral (text : List Char) : List Char :=
  ((text.dropWhile isNumeralBlank).reverse.dropWhile isNumeralBlank).reverse

/-- The sign at the start of a text, true for a minus, and what follows it. -/
def splitSign : List Char → Bool × List Char
  | '-' :: rest => (true, rest)
  | '+' :: rest => (false, rest)
  | text => (false, text)

/-- The digit values at the start of a text, and what follows them. -/
def takeDigits : List Char → List Nat × List Char
  | [] => ([], [])
  | c :: rest =>
    match digitValue? c with
    | some d => let (ds, tail) := takeDigits rest; (d :: ds, tail)
    | none => ([], c :: rest)

/-- The number with the given decimal digits, the most significant first. -/
def ofDigits (digits : List Nat) : Nat :=
  digits.foldl (fun n d => 10 * n + d) 0

/-- A text without its underscores, if each of them stands between two digits. `afterDigit` tells
whether the character before the text is one. -/
def dropUnderscores? : Bool → List Char → Option (List Char)
  | _, [] => some []
  | afterDigit, '_' :: rest =>
    match rest with
    | c :: _ => if afterDigit && isDigit c then dropUnderscores? false rest else none
    | [] => none
  | _, c :: rest => (dropUnderscores? (isDigit c) rest).map (c :: ·)

/-- A text as an integer: a sign if there is one, then digits only. -/
def readInteger? (text : List Char) : Option Int := do
  let plain ← dropUnderscores? false (trimNumeral text)
  let (negative, body) := splitSign plain
  let (digits, rest) := takeDigits body
  guard (rest.isEmpty && !digits.isEmpty && digits.length ≤ maxIntegerDigits)
  let n := ofDigits digits
  pure (if negative then -(n : Int) else n)

/-- The exponent at the start of a text, and what follows it. Without a digit after the mark there
is no exponent, and the mark is left in place. -/
def takeExponent (text : List Char) : Int × List Char :=
  match text with
  | c :: rest =>
    if c = 'e' || c = 'E' then
      let (negative, body) := splitSign rest
      match takeDigits body with
      | ([], _) => (0, text)
      | (digits, tail) => ((if negative then -(ofDigits digits : Int) else ofDigits digits), tail)
    else (0, text)
  | [] => (0, [])

/-- The float nearest to `digits * 10 ^ exponent`, where `count` is the number of digits. -/
def floatOfDecimal (negative : Bool) (digits count : Nat) (exponent : Int) : Float :=
  if digits = 0 || exponent + count < -400 then Binary64.floatOfBits negative 0
  else if 400 + (count : Int) < exponent + count then
    Binary64.floatOfBits negative Binary64.infinityBits
  else if 0 ≤ exponent then floatOfRatio negative (digits * Nat.pow 10 exponent.toNat) 1
  else floatOfRatio negative digits (Nat.pow 10 (-exponent).toNat)

/-- A word for a special float, in any case. -/
def readSpecial? (negative : Bool) (text : List Char) : Option Float :=
  let word := String.ofList (text.map Char.toLower)
  if word = "inf" || word = "infinity" then
    some (Binary64.floatOfBits negative Binary64.infinityBits)
  else if word = "nan" then some (0.0 / 0.0)
  else none

/-- Decimal digits with an optional point and exponent; at least one digit stands before the
exponent. -/
def readDecimal? (negative : Bool) (text : List Char) : Option Float :=
  let (whole, rest) := takeDigits text
  let (fraction, rest) :=
    match rest with
    | '.' :: tail => takeDigits tail
    | _ => ([], rest)
  let (exponent, rest) := takeExponent rest
  let digits := whole ++ fraction
  if digits.isEmpty || !rest.isEmpty then none
  else some (floatOfDecimal negative (ofDigits digits) digits.length (exponent - fraction.length))

/-- A text as a float. -/
def readFloat? (text : List Char) : Option Float := do
  let plain ← dropUnderscores? false (trimNumeral text)
  let (negative, body) := splitSign plain
  (readSpecial? negative body).orElse fun _ => readDecimal? negative body

end Precedence
