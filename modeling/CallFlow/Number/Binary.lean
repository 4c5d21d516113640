/-!
# Binary fractions

A `Float` is a whole number of binary places: its **shape** is a sign, a
whole number `m` and a power `q`, and its value is `m · 2 ^ q`. Everything
this library decides about a fraction – whether it equals a whole number,
which whole number lies above it, which digits it is written with – is
decided on the shape, in exact arithmetic.

The way back is `Binary.nearest`: the fraction nearest to a ratio, a ratio
half-way between two going to the one whose `m` is even, and a ratio beyond
the largest fraction going to infinity. `Binary.ofInt?` refuses such a whole
number instead.
-/

namespace CallFlow

/-- The quotient of two numbers, rounded to the nearest; a half goes to the
even neighbour. -/
def roundedQuotient (num den : Nat) : Nat :=
  let q := num / den
  let r := num % den
  if 2 * r < den then q
  else if den < 2 * r then q + 1
  else if q % 2 = 0 then q else q + 1

/-- What a fraction is made of. -/
inductive Shape where
  /-- Not a number. -/
  | undefined
  /-- An infinity. -/
  | infinite (negative : Bool)
  /-- The number `m · 2 ^ q`, or its negative. -/
  | finite (negative : Bool) (m : Nat) (q : Int)
  deriving DecidableEq, Repr

namespace Shape

/-- The number of bits that hold the digits of a fraction. -/
def fractionBits : Nat := 52

/-- The smallest power of two a fraction is counted in. -/
def smallestPower : Int := -1074

/-- Reads the shape off the 64 bits of a fraction: the sign, 11 bits of
exponent, 52 bits of digits with a leading one left out. -/
def ofBits (bits : Nat) : Shape :=
  let negative : Bool := bits / Nat.pow 2 63 % 2 = 1
  let exponent : Nat := bits / Nat.pow 2 fractionBits % Nat.pow 2 11
  let digits : Nat := bits % Nat.pow 2 fractionBits
  if exponent = 2047 then
    if digits = 0 then .infinite negative else .undefined
  else if exponent = 0 then .finite negative digits smallestPower
  else .finite negative (digits + Nat.pow 2 fractionBits) ((exponent : Int) - 1 + smallestPower)

/-- A shape's number as a ratio of natural numbers, the sign left aside. -/
def ratio (m : Nat) (q : Int) : Nat × Nat :=
  if q < 0 then (m, Nat.pow 2 (-q).toNat) else (m * Nat.pow 2 q.toNat, 1)

/-- The whole number that `m · 2 ^ q` or its negative is, if it is one. -/
def whole? (negative : Bool) (m : Nat) (q : Int) : Option Int :=
  let (num, den) := ratio m q
  if num % den = 0 then some (if negative then -((num / den : Nat) : Int) else (num / den : Nat))
  else none

/-- The whole number left when the places after the point are cut off. -/
def truncated? : Shape → Option Int
  | .finite negative m q =>
    let (num, den) := ratio m q
    some (if negative then -((num / den : Nat) : Int) else (num / den : Nat))
  | _ => none

end Shape

namespace Binary

/-- The shape of a fraction. -/
def shape (x : Float) : Shape := Shape.ofBits x.toBits.toNat

/-- The infinity of a sign. -/
def infinity (negative : Bool) : Float :=
  Float.ofBits (if negative then 0xFFF0000000000000 else 0x7FF0000000000000)

/-- The fraction that is no number. -/
def notANumber : Float := Float.ofBits 0x7FF8000000000000

/-- The power of two a ratio's digits are counted in: 53 digits are kept,
unless the ratio is so small that fewer remain. -/
def placePower (num den : Nat) : Int :=
  let estimate : Int := (num.log2 : Int) - den.log2
  let (scaledNum, scaledDen) :=
    if 0 ≤ estimate then (num, den * Nat.pow 2 estimate.toNat)
    else (num * Nat.pow 2 (-estimate).toNat, den)
  let exponent := if scaledNum < scaledDen then estimate - 1 else estimate
  max (exponent - Shape.fractionBits) Shape.smallestPower

/-- The bits of the fraction nearest to a ratio, the sign left aside. The
digits and the exponent are added rather than joined, so that digits that
round up to the next power of two carry into the exponent. -/
def nearestBits (num den : Nat) : Nat :=
  if num = 0 then 0
  else
    let q := placePower num den
    let m := if 0 ≤ q then roundedQuotient num (den * Nat.pow 2 q.toNat)
      else roundedQuotient (num * Nat.pow 2 (-q).toNat) den
    min ((q - Shape.smallestPower).toNat * Nat.pow 2 Shape.fractionBits + m)
      (2047 * Nat.pow 2 Shape.fractionBits)

/-- The fraction nearest to a ratio. -/
def nearest (negative : Bool) (num den : Nat) : Float :=
  Float.ofBits (UInt64.ofNat (nearestBits num den + if negative then Nat.pow 2 63 else 0))

/-- A whole number rounded to as many digits as a fraction keeps. -/
def keepDigits (n : Nat) : Nat :=
  let unit := Nat.pow 2 (n.log2 - Shape.fractionBits)
  roundedQuotient n unit * unit

/-- The fraction nearest to a whole number, unless the number is beyond the
largest fraction. -/
def ofInt? (n : Int) : Option Float :=
  if nearestBits n.natAbs 1 = 2047 * Nat.pow 2 Shape.fractionBits then none
  else some (nearest (n < 0) n.natAbs 1)

end Binary

end CallFlow
