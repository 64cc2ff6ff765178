import Precedence.Number.Binary64

/-!
# Shortest decimal text of a float

The text of a float has the fewest digits that read back as the same float, and of those the digits
nearest to it.

## Main definitions

- `Decimal` — digits and the place of the point
- `shortestDecimal` — the shortest decimal of a finite float
- `Decimal.layout` — the decimal as text
- `floatText` — the text of any float

## Design notes

The reals that round to a float form an interval around it, whose ends belong to it if and only if
its number of units is even. For one digit, two digits and so on the two neighbours of the float on
that decimal grid are tested against the interval; seventeen digits always suffice.
-/

namespace Precedence

/-- A positive decimal `digits * 10 ^ (point - count)`, where `count` is the number of digits: the
point stands after the first `point` digits. -/
structure Decimal where
  digits : Nat
  count : Nat
  point : Int
deriving Repr, DecidableEq

/-- The scaled interval of the reals that round to a float. All numbers are over one common
denominator, `den`. -/
private structure RoundingInterval where
  value : Nat
  low : Nat
  high : Nat
  den : Nat
  closed : Bool

/-- The interval around `units * 2 ^ exponent`. Below a power of two the floats lie twice as close,
unless it is the smallest normal one. -/
private def roundingInterval (units : Nat) (exponent : Int) : RoundingInterval :=
  let scaled (n : Nat) : Nat := if 2 ≤ exponent then n * Nat.pow 2 (exponent - 2).toNat else n
  let den : Nat := if 2 ≤ exponent then 1 else Nat.pow 2 (2 - exponent).toNat
  let below := if units = Nat.pow 2 52 && -1074 < exponent then 1 else 2
  ⟨scaled (4 * units), scaled (4 * units - below), scaled (4 * units + 2), den, units % 2 = 0⟩

/-- Whether `n / den` lies in the interval. -/
private def RoundingInterval.admits (r : RoundingInterval) (num den : Nat) : Bool :=
  let left := num * r.den
  if r.closed then r.low * den ≤ left && left ≤ r.high * den
  else r.low * den < left && left < r.high * den

/-- The number of decimal digits before the point of `num / den`, minus one; for a quotient below
one it is negative. `guess` is at most the result, and `fuel` bounds the steps up from there. -/
private def decimalExponent (num den : Nat) : Nat → Int → Int
  | 0, guess => guess
  | fuel + 1, guess =>
    let next := guess + 1
    let reached :=
      if 0 ≤ next then den * Nat.pow 10 next.toNat ≤ num
      else den ≤ num * Nat.pow 10 (-next).toNat
    if reached then decimalExponent num den fuel next else guess

/-- The neighbour of the interval's value on the grid of `10 ^ scale` that reads back, if there is
one; of two the nearer, and of two equally near the even one. -/
private def RoundingInterval.onGrid (r : RoundingInterval) (scale : Int) : Option Nat :=
  let num := if 0 ≤ scale then r.value else r.value * Nat.pow 10 (-scale).toNat
  let den := if 0 ≤ scale then r.den * Nat.pow 10 scale.toNat else r.den
  let q := num / den
  let reads (n : Nat) : Bool :=
    if 0 ≤ scale then r.admits (n * Nat.pow 10 scale.toNat) 1
    else r.admits n (Nat.pow 10 (-scale).toNat)
  let rem := num % den
  let nearerIsUp := den < 2 * rem || (den == 2 * rem && q % 2 == 1)
  match reads q && 0 < q, reads (q + 1) with
  | true, true => some (if nearerIsUp then q + 1 else q)
  | true, false => some q
  | false, true => some (q + 1)
  | false, false => none

/-- The shortest decimal with at most `fuel` more digits than `count`, where `top` is the decimal
exponent of the value. -/
private def searchDecimal (r : RoundingInterval) (top : Int) : Nat → Nat → Decimal
  | 0, count => ⟨0, count, 0⟩
  | fuel + 1, count =>
    match r.onGrid (top + 1 - count) with
    | some n =>
      if n = Nat.pow 10 count then ⟨1, 1, top + 2⟩ else ⟨n, count, top + 1⟩
    | none => searchDecimal r top fuel (count + 1)

/-- The shortest decimal that reads back as the float `units * 2 ^ exponent`, for positive
`units`. -/
def shortestDecimal (units : Nat) (exponent : Int) : Decimal :=
  let r := roundingInterval units exponent
  let log2 := (units.log2 : Int) + exponent
  let guess := log2 * 30103 / 100000 - 1
  searchDecimal r (decimalExponent r.value r.den 4 guess) 18 1

namespace Decimal

/-- Which decimal exponents are written with a plain point: from `-4` up to `15`. -/
def isPositional (exponent : Int) : Bool :=
  -4 ≤ exponent && exponent < 16

/-- The decimal as text. A whole number keeps one zero after the point; outside the positional
exponents the text has a mark `e`, a sign, and at least two digits. -/
def layout (d : Decimal) : List Char :=
  let digits := (Nat.repr d.digits).toList
  let exponent := d.point - 1
  if isPositional exponent then
    if d.point ≤ 0 then '0' :: '.' :: (List.replicate (-d.point).toNat '0' ++ digits)
    else if (d.count : Int) ≤ d.point then
      digits ++ List.replicate (d.point - d.count).toNat '0' ++ ['.', '0']
    else digits.take d.point.toNat ++ '.' :: digits.drop d.point.toNat
  else
    let mantissa :=
      match digits with
      | [] => []
      | [c] => [c]
      | c :: rest => c :: '.' :: rest
    let size := (Nat.repr exponent.natAbs).toList
    mantissa ++ 'e' :: (if exponent < 0 then '-' else '+')
      :: (if size.length < 2 then '0' :: size else size)

end Decimal

/-- The text of a float: the shortest decimal, or a word for an infinity or not-a-number. -/
def floatText (x : Float) : String :=
  match Binary64.ofFloat? x with
  | some ⟨negative, units, exponent⟩ =>
    let body := if units = 0 then ['0', '.', '0'] else (shortestDecimal units exponent).layout
    String.ofList (if negative then '-' :: body else body)
  | none => if x.isNaN then "nan" else if 0 < x then "inf" else "-inf"

end Precedence
