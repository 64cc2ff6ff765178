import Precedence.Number.Numeral
import Precedence.Number.Shortest
import Precedence.Text.Quoted

/-!
# Numbers and their arithmetic

A number is an unbounded integer or a float. Sums, differences, products and remainders of integers
are integers, a quotient is always a float, and an integer that meets a float is converted.

## Main definitions

- `Number` — an integer or a float
- `Number.read?` — a text as a number, an integer if it can be one
- `ArithmeticFault` — why an operation has no result
- `Number.add`, `Number.sub`, `Number.mul`, `Number.div`, `Number.mod`, `Number.pow`

## Design notes

The remainder takes the sign of the divisor. An integer to the power of a negative integer is
computed with floats. A power whose result would be a complex number is a fault of its own, and so
is one whose complex result would overflow.
-/

namespace Precedence

/-- A number: an unbounded integer or a float. -/
inductive Number where
  | int (value : Int)
  | real (value : Float)
deriving Repr, Inhabited

/-- Why an arithmetic operation has no result. -/
inductive ArithmeticFault where
  | divisionByZero
  | moduloByZero
  | integerTooLarge
  | quotientTooLarge
  | resultTooLarge
  | zeroToNegativePower
  | complexTooLarge
  | complexResult
deriving Repr, DecidableEq

/-- The message of a fault. -/
def ArithmeticFault.message : ArithmeticFault → String
  | divisionByZero => "division by zero"
  | moduloByZero => "modulo by zero"
  | integerTooLarge => "int too large to convert to float"
  | quotientTooLarge => "integer division result too large for a float"
  | resultTooLarge => "(34, 'Numerical result out of range')"
  | zeroToNegativePower => "0.0 cannot be raised to a negative power"
  | complexTooLarge => "complex exponentiation"
  | complexResult => "complex result"

namespace Number

/-- A text as a number: as an integer if it reads as one, else as a float. -/
def read? (text : String) : Option Number :=
  match readInteger? text.toList with
  | some i => some (.int i)
  | none => (readFloat? text.toList).map .real

/-- Whether an integer has too many digits to be written in decimal. -/
def exceedsDigits (i : Int) : Bool :=
  Nat.pow 10 maxIntegerDigits ≤ i.natAbs

/-- The text of a number, unless it is an integer with too many digits. -/
def text? : Number → Option String
  | int i => if exceedsDigits i then none else some (toString i)
  | real x => some (floatText x)

/-- Whether a number is zero; so are both float zeros. -/
def isZero : Number → Bool
  | int i => i == 0
  | real x => x == 0.0

/-- The float nearest to a number. -/
def toFloat : Number → Except ArithmeticFault Float
  | int i =>
    match floatOfInt? i with
    | some x => .ok x
    | none => .error .integerTooLarge
  | real x => .ok x

/-- Apply an integer operation to two integers, and a float operation to all other operands; the
left one is converted first. -/
def combine (onInt : Int → Int → Int) (onFloat : Float → Float → Float) (a b : Number) :
    Except ArithmeticFault Number :=
  match a, b with
  | int i, int j => .ok (.int (onInt i j))
  | a, b => do
    let x ← a.toFloat
    let y ← b.toFloat
    pure (.real (onFloat x y))

/-- The sum. -/
def add : Number → Number → Except ArithmeticFault Number :=
  combine (· + ·) (· + ·)

/-- The difference. -/
def sub : Number → Number → Except ArithmeticFault Number :=
  combine (· - ·) (· - ·)

/-- The product. -/
def mul : Number → Number → Except ArithmeticFault Number :=
  combine (· * ·) (· * ·)

/-- The float remainder with the sign of the divisor; a zero remainder has that sign too. -/
def floatMod (x y : Float) : Float :=
  let r := floatRemainder x y
  if r == 0.0 then floatZeroLike y
  else if (y < 0.0) != (r < 0.0) then r + y
  else r

/-- The remainder, which is zero or has the sign of the divisor. -/
def mod (a b : Number) : Except ArithmeticFault Number :=
  if b.isZero then .error .moduloByZero else combine Int.fmod floatMod a b

/-- The quotient of two integers, correctly rounded. -/
def divInt (i j : Int) : Except ArithmeticFault Number :=
  let bits := Binary64.bitsOfRatio i.natAbs j.natAbs
  if bits = Binary64.infinityBits then .error .quotientTooLarge
  else .ok (.real (Binary64.floatOfBits ((i < 0) != (j < 0)) bits))

/-- The quotient, always a float. -/
def div (a b : Number) : Except ArithmeticFault Number :=
  if b.isZero then .error .divisionByZero
  else
    match a, b with
    | int i, int j => divInt i j
    | a, b => do
      let x ← a.toFloat
      let y ← b.toFloat
      pure (.real (x / y))

/-- A power of positive finite floats other than one. An infinite result is out of range. -/
def floatPowPositive (x y : Float) : Except ArithmeticFault Float :=
  let r := Float.pow x y
  if r.isInf then .error .resultTooLarge else .ok r

/-- A power with an infinite exponent: it tells only whether the base is above or below one. -/
def floatPowInfinite (x y : Float) : Float :=
  let size := x.abs
  if size == 1.0 then 1.0
  else if (0.0 < y) == (1.0 < size) then y.abs
  else 0.0

/-- A power of an infinite base: only the sign of the exponent, and whether it is odd, matter. -/
def infinitePow (x y : Float) : Float :=
  if 0.0 < y then (if floatIsOdd y then x else x.abs)
  else (if floatIsOdd y then floatZeroLike x else 0.0)

/-- A power of a negative finite base. A whole exponent only decides the sign; any other leads to a
complex number. -/
def negativePow (x y : Float) : Except ArithmeticFault Float :=
  if (floatToInt? y).isNone then
    if (Float.pow x.abs y).isInf then .error .complexTooLarge else .error .complexResult
  else
    let signed (r : Float) : Float := if floatIsOdd y then -r else r
    if x == -1.0 then .ok (signed 1.0) else (floatPowPositive x.abs y).map signed

/-- The power of two floats. -/
def floatPow (x y : Float) : Except ArithmeticFault Float :=
  if y == 0.0 then .ok 1.0
  else if x.isNaN then .ok x
  else if y.isNaN then .ok (if x == 1.0 then 1.0 else y)
  else if y.isInf then .ok (floatPowInfinite x y)
  else if x.isInf then .ok (infinitePow x y)
  else if x == 0.0 then
    if y < 0.0 then .error .zeroToNegativePower
    else .ok (if floatIsOdd y then x else 0.0)
  else if x < 0.0 then negativePow x y
  else if x == 1.0 then .ok 1.0
  else floatPowPositive x y

/-- An integer to the power of a natural number. For the bases that do not grow, only the parity of
the exponent is looked at. -/
def intPow (i : Int) (n : Nat) : Int :=
  if i = 1 then 1
  else if i = 0 then (if n = 0 then 1 else 0)
  else if i = -1 then (if n % 2 = 0 then 1 else -1)
  else Int.pow i n

/-- The special bases of `intPow` agree with the power itself. -/
theorem intPow_eq (i : Int) (n : Nat) : intPow i n = Int.pow i n := by
  unfold intPow
  split
  · next h => subst h; exact Int.one_pow.symm
  split
  · next h =>
    subst h
    induction n with
    | zero => rfl
    | succ n _ => exact (Int.mul_zero (Int.pow 0 n)).symm
  split
  · next h =>
    subst h
    induction n with
    | zero => rfl
    | succ n ih =>
      have hsucc : Int.pow (-1) (n + 1) = Int.pow (-1) n * -1 := Int.pow_succ (-1) n
      rw [hsucc, ← ih]
      split <;> split <;> omega
  · rfl

/-- The power. -/
def pow (a b : Number) : Except ArithmeticFault Number :=
  match a, b with
  | int i, int (.ofNat n) => .ok (.int (intPow i n))
  | a, b => do
    let x ← a.toFloat
    let y ← b.toFloat
    (floatPow x y).map .real

end Number

end Precedence
