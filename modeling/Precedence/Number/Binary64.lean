/-!
# Binary floating point, exactly

A finite float is a whole number of units `2 ^ exponent`. The functions here go from floats to such
numbers and back, rounding a quotient of naturals to the nearest float and a half to the even one.

## Main definitions

- `Binary64` — sign, whole number of units, and exponent of a finite float
- `Binary64.ofFloat?` — the parts of a finite float
- `Binary64.bitsOfRatio` — the bits of the float nearest to a quotient
- `floatOfRatio` — that float, with a sign
- `floatOfInt?` — the float nearest to an integer, if it is finite
- `floatRemainder` — the exact remainder of a truncated division

## Design notes

The bits of a magnitude grow with it, so adding the rounded significand to the shifted exponent
carries over into the next binade, and finally into infinity, without a special case.
-/

namespace Precedence

/-- A finite float: `units * 2 ^ exponent`, negated if `negative`. -/
structure Binary64 where
  negative : Bool
  units : Nat
  exponent : Int
deriving Repr, DecidableEq

namespace Binary64

/-- The bits of positive infinity. -/
def infinityBits : Nat := 0x7ff * Nat.pow 2 52

/-- The parts of a float, or nothing for an infinity or not-a-number. -/
def ofFloat? (x : Float) : Option Binary64 :=
  let bits : Nat := x.toBits.toNat
  let negative := Nat.pow 2 63 ≤ bits
  let biased : Nat := bits / Nat.pow 2 52 % Nat.pow 2 11
  let fraction : Nat := bits % Nat.pow 2 52
  if biased = 0x7ff then none
  else if biased = 0 then some ⟨negative, fraction, -1074⟩
  else some ⟨negative, Nat.pow 2 52 + fraction, (biased : Int) - 1075⟩

/-- The float with the given sign and magnitude bits. -/
def floatOfBits (negative : Bool) (bits : Nat) : Float :=
  Float.ofBits (UInt64.ofNat (if negative then Nat.pow 2 63 + bits else bits))

/-- The quotient `num / den`, for a positive `den`, rounded to the nearest whole number, a half to
the even one. -/
def roundHalfEven (num den : Nat) : Nat :=
  let q := num / den
  let r := num % den
  if 2 * r < den then q
  else if den < 2 * r then q + 1
  else q + q % 2

/-- The exponent of the highest power of two that is not above `num / den`, for positive `num` and
`den`. -/
def log2Ratio (num den : Nat) : Int :=
  let k := (num.log2 : Int) - den.log2
  if 0 ≤ k then
    if den * Nat.pow 2 k.toNat ≤ num then k else k - 1
  else
    if den ≤ num * Nat.pow 2 (-k).toNat then k else k - 1

/-- The quotient `num / den` counted in units of `2 ^ exponent`, to the nearest whole number. -/
def unitsOfRatio (num den : Nat) (exponent : Int) : Nat :=
  if 0 ≤ exponent then roundHalfEven num (den * Nat.pow 2 exponent.toNat)
  else roundHalfEven (num * Nat.pow 2 (-exponent).toNat) den

/-- The bits of the float nearest to `num / den`, for a positive `den`; a quotient too large for a
finite float gives the bits of infinity. -/
def bitsOfRatio (num den : Nat) : Nat :=
  if num = 0 then 0
  else
    let exponent := max (log2Ratio num den - 52) (-1074)
    if 971 < exponent then infinityBits
    else min infinityBits
      ((exponent + 1074).toNat * Nat.pow 2 52 + unitsOfRatio num den exponent)

end Binary64

/-- The float nearest to `num / den`, for a positive `den`, negated if `negative`. -/
def floatOfRatio (negative : Bool) (num den : Nat) : Float :=
  Binary64.floatOfBits negative (Binary64.bitsOfRatio num den)

/-- The float nearest to an integer, or nothing if the integer is beyond the finite floats. -/
def floatOfInt? (i : Int) : Option Float :=
  let bits := Binary64.bitsOfRatio i.natAbs 1
  if bits = Binary64.infinityBits then none else some (Binary64.floatOfBits (i < 0) bits)

/-- The float of exactly `units * 2 ^ exponent`, provided that there is one. -/
def Binary64.toFloat (x : Binary64) : Float :=
  if 0 ≤ x.exponent then floatOfRatio x.negative (x.units * Nat.pow 2 x.exponent.toNat) 1
  else floatOfRatio x.negative x.units (Nat.pow 2 (-x.exponent).toNat)

/-- The remainder of `x / y` truncated towards zero. It is exact and has the sign of `x`; with an
infinite `y` it is `x`, and with an infinite `x`, a zero `y` or not-a-number it is not a number. -/
def floatRemainder (x y : Float) : Float :=
  match Binary64.ofFloat? x, Binary64.ofFloat? y with
  | some a, some b =>
    if b.units = 0 then 0.0 / 0.0
    else
      let exponent := min a.exponent b.exponent
      let units := a.units * Nat.pow 2 (a.exponent - exponent).toNat
        % (b.units * Nat.pow 2 (b.exponent - exponent).toNat)
      Binary64.toFloat ⟨a.negative, units, exponent⟩
  | some _, none => if y.isNaN then y else x
  | none, _ => 0.0 / 0.0

/-- Whether a float has its sign bit set; so has negative zero. -/
def floatSignBit (x : Float) : Bool :=
  Nat.pow 2 63 ≤ x.toBits.toNat

/-- A zero with the sign of `x`. -/
def floatZeroLike (x : Float) : Float :=
  Binary64.floatOfBits (floatSignBit x) 0

/-- The value of a finite float as an integer, if it is whole. -/
def Binary64.toInt? (x : Binary64) : Option Int :=
  let magnitude : Option Nat :=
    if 0 ≤ x.exponent then some (x.units * Nat.pow 2 x.exponent.toNat)
    else if x.units % Nat.pow 2 (-x.exponent).toNat = 0 then
      some (x.units / Nat.pow 2 (-x.exponent).toNat)
    else none
  magnitude.map fun n => if x.negative then -(n : Int) else n

/-- The integer that a float equals, if there is one. -/
def floatToInt? (x : Float) : Option Int :=
  (Binary64.ofFloat? x).bind (·.toInt?)

/-- Whether a float is an odd whole number. -/
def floatIsOdd (x : Float) : Bool :=
  match floatToInt? x with
  | some i => i % 2 == 1
  | none => false

end Precedence
