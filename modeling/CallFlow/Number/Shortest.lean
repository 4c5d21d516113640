import CallFlow.Number.Binary

/-!
# The shortest digits of a binary fraction

A fraction is written with the fewest decimal digits that read back as the
same fraction, and among those with the digits nearest to it. The ratios
that read back as `m · 2 ^ q` form an interval around it, which reaches
half-way to either neighbour and holds its ends exactly when `m` is even;
below a power of two the lower neighbour is only half as far away.

The search goes through the decimal grids of 1, 2, … 17 digits. On each it
looks at the two points around the fraction, for if any point of a grid
lies in the interval, one of those two does. Seventeen digits always
suffice. `Shortest.text` then places the point: numbers from `10 ^ -4` up
to `10 ^ 16` are written out, others with an exponent of at least two
digits.
-/

namespace CallFlow

/-- Decimal digits with a power of ten: the number `digits · 10 ^ power`. -/
structure Scientific where
  /-- The digits, as one number. -/
  digits : Nat
  /-- The power of ten its last digit counts. -/
  power : Int
  deriving DecidableEq, Repr

/-- The digits of a number in base ten, most significant first. -/
def decimalDigits (n : Nat) : List Char := Nat.toDigits 10 n

/-- The power of ten of the first digit of a positive ratio. -/
def leadingPower (num den : Nat) : Int :=
  if den ≤ num then ((decimalDigits (num / den)).length : Int) - 1
  else
    let places := (decimalDigits (den / num)).length
    if den = num * Nat.pow 10 (places - 1) then 1 - (places : Int) else -(places : Int)

namespace Shortest

/-- The ratios that read back as one fraction, over a common denominator:
the fraction itself, and how far the interval reaches to either side. -/
structure Interval where
  /-- The numerator of the fraction. -/
  value : Nat
  /-- How far the interval reaches down. -/
  below : Nat
  /-- How far the interval reaches up. -/
  above : Nat
  /-- The common denominator. -/
  den : Nat
  /-- Whether the ends belong to the interval. -/
  closed : Bool

/-- The interval of ratios that read back as `m · 2 ^ q`. -/
def interval (m : Nat) (q : Int) : Interval :=
  let isPower := m = Nat.pow 2 Shape.fractionBits ∧ Shape.smallestPower < q
  let (unit, den) := Shape.ratio 1 (q - 2)
  { value := 4 * m * unit
    below := (if isPower then 1 else 2) * unit
    above := 2 * unit
    den := den
    closed := m % 2 = 0 }

/-- Whether the ratio `num / den` lies in the interval. -/
def Interval.holds (i : Interval) (num den : Nat) : Bool :=
  let point := num * i.den
  let low := (i.value - i.below) * den
  let high := (i.value + i.above) * den
  if i.closed then low ≤ point && point ≤ high else low < point && point < high

/-- The nearer of the two grid points around the fraction that lies in the
interval, if one does. The grid counts in powers of ten; of two points as
near as each other the even one is taken. -/
def onGrid (i : Interval) (power : Int) : Option Nat :=
  let (scale, unscale) :=
    if 0 ≤ power then (Nat.pow 10 power.toNat, 1) else (1, Nat.pow 10 (-power).toNat)
  let num := i.value * unscale
  let den := i.den * scale
  let lower := num / den
  let fits (point : Nat) : Bool := i.holds (point * scale) unscale
  if fits lower && fits (lower + 1) then some (roundedQuotient num den)
  else if fits lower then some lower
  else if fits (lower + 1) then some (lower + 1)
  else none

/-- Tries grids of more and more digits, ending with the last one. -/
def search (i : Interval) (leading : Int) : Nat → Nat → Scientific
  | 0, count =>
    let power := leading - count
    ⟨(onGrid i power).getD 0, power⟩
  | fuel + 1, count =>
    let power := leading - count
    match onGrid i power with
    | some digits => ⟨digits, power⟩
    | none => search i leading fuel (count + 1)

/-- The shortest digits of the positive fraction `m · 2 ^ q`. -/
def digits (m : Nat) (q : Int) : Scientific :=
  let i := interval m q
  search i (leadingPower i.value i.den) 16 0

/-- Drops the zeros at the end of a sequence of digits. -/
def dropTrailingZeros (ds : List Char) : List Char :=
  (ds.reverse.dropWhile (· = '0')).reverse

/-- An exponent with its sign and at least two digits. -/
def exponentText (e : Int) : List Char :=
  let ds := decimalDigits e.natAbs
  (if e < 0 then '-' else '+') :: (if ds.length < 2 then '0' :: ds else ds)

/-- Digits with a point after the first of them, and an exponent. -/
def withExponent (ds : List Char) (leading : Int) : List Char :=
  let mantissa := match ds with
    | [] => ['0']
    | [d] => [d]
    | d :: rest => d :: '.' :: rest
  mantissa ++ 'e' :: exponentText leading

/-- Digits written out around the point, the first one counting
`10 ^ leading`. Where no digit falls behind the point, `ending` stands
there. -/
def writtenOut (ds : List Char) (leading : Int) (ending : List Char) : List Char :=
  if leading < 0 then '0' :: '.' :: (List.replicate (-leading - 1).toNat '0' ++ ds)
  else
    let whole := leading.toNat + 1
    let padded := ds ++ List.replicate (whole - ds.length) '0'
    let behind := padded.drop whole
    padded.take whole ++ (if behind.isEmpty then ending else '.' :: behind)

/-- The text of a fraction. -/
def text (x : Float) : List Char :=
  match Binary.shape x with
  | .undefined => "nan".toList
  | .infinite negative => (if negative then ['-'] else []) ++ "inf".toList
  | .finite negative m q =>
    let sign := if negative then ['-'] else []
    if m = 0 then sign ++ "0.0".toList
    else
      let s := digits m q
      let ds := decimalDigits s.digits
      let leading := s.power + ds.length - 1
      let kept := dropTrailingZeros ds
      if -4 ≤ leading ∧ leading < 16 then sign ++ writtenOut kept leading ".0".toList
      else sign ++ withExponent kept leading

end Shortest

/-! ## A fixed number of digits -/

namespace SixDigits

/-- How many digits are kept. -/
def count : Nat := 6

/-- The number rounded to six digits, a half going to the even digit. -/
def rounded (num den : Nat) : Scientific :=
  let power := leadingPower num den + 1 - count
  if 0 ≤ power then ⟨roundedQuotient num (den * Nat.pow 10 power.toNat), power⟩
  else ⟨roundedQuotient (num * Nat.pow 10 (-power).toNat) den, power⟩

/-- The text of a fraction to six digits, without zeros at the end:
written out from `10 ^ -4` up to `10 ^ 6`, with an exponent otherwise. -/
def text (x : Float) : List Char :=
  match Binary.shape x with
  | .undefined => "nan".toList
  | .infinite negative => (if negative then ['-'] else []) ++ "inf".toList
  | .finite negative m q =>
    let sign := if negative then ['-'] else []
    if m = 0 then sign ++ ['0']
    else
      let (num, den) := Shape.ratio m q
      let s := rounded num den
      let ds := decimalDigits s.digits
      let leading := s.power + ds.length - 1
      let kept := Shortest.dropTrailingZeros ds
      if -4 ≤ leading ∧ leading < (count : Int) then sign ++ Shortest.writtenOut kept leading []
      else sign ++ Shortest.withExponent kept leading

end SixDigits

end CallFlow
