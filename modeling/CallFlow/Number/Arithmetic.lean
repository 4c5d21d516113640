import CallFlow.Value.Basic

/-!
# Arithmetic on the numbers of a document

Whole numbers are added and multiplied exactly, whatever their size. As
soon as one operand is a binary fraction the other becomes one too, and a
whole number beyond the largest fraction is refused.
-/

namespace CallFlow

namespace Number

/-- The number as a binary fraction. -/
def toFloat : Number → Outcome Float
  | float x => .ok x
  | int n =>
    match Binary.ofInt? n with
    | some x => .ok x
    | none => .error .tooLarge

/-- The sum of two numbers. -/
def add : Number → Number → Outcome Number
  | int a, int b => .ok (int (a + b))
  | a, b => do return float ((← a.toFloat) + (← b.toFloat))

/-- The product of two numbers. -/
def mul : Number → Number → Outcome Number
  | int a, int b => .ok (int (a * b))
  | a, b => do return float ((← a.toFloat) * (← b.toFloat))

/-- As many times the number as a count says. A count beyond the largest
fraction is infinite beside a fraction. -/
def times (count : Nat) : Number → Number
  | int n => int (count * n)
  | float x => float (Binary.nearest false count 1 * x)

/-- The larger of a number and one. -/
def atLeastOne : Number → Number
  | int n => int (max n 1)
  | float x => if (1.0 : Float) > x then int 1 else float x

/-- The whole number left of a number when its places are cut off. -/
def truncated : Number → Outcome Int
  | int n => .ok n
  | float x =>
    match Binary.shape x with
    | .undefined => .error .badContent
    | .infinite _ => .error .tooLarge
    | s => .ok (s.truncated?.getD 0)

/-- What is left of a finite fraction after taking away as many whole
steps as fit, with the sign of the fraction. -/
def leftOver (x : Float) (step : Nat) : Float :=
  match Binary.shape x with
  | .finite negative m q =>
    let (num, den) := Shape.ratio m q
    Binary.nearest negative (num % (step * den)) den
  | _ => Binary.notANumber

/-- The whole fraction next to a quotient that is whole but for a rounding
error. A quotient of zero has the sign of what was divided. -/
def settled (divided quotient : Float) : Float :=
  if quotient == 0.0 then
    Binary.nearest (divided.toBits.toNat / Nat.pow 2 63 = 1) 0 1
  else
    let below := quotient.floor
    if quotient - below > 0.5 then below + 1.0 else below

/-- How often a positive step fits into a number, counted down to the
floor, and what is left, which is never below zero. -/
def divideByStep (n : Number) (step : Nat) : Outcome (Number × Number) :=
  match n with
  | int a => .ok (int (a.fdiv step), int (a.fmod step))
  | float x => do
    let s ← toFloat (int step)
    let rest := leftOver x step
    let count := (x - rest) / s
    if rest < 0.0 then return (float (settled x (count - 1.0)), float (rest + s))
    else return (float (settled x count), float rest.abs)

end Number

end CallFlow
