import CallFlow.Number.Binary

/-!
# Numbers

A document writes a number whole or as a binary fraction, and keeps the two
apart. What a number *counts for* is its value alone: `Number.reduced` is
the one form all numbers of a value share, and `Number.same` compares by
it. Whole numbers are so compared with fractions exactly, however large they
are. What is no number counts as one value of its own, and a sign of zero
does not count.
-/

namespace CallFlow

/-- A number of a document. -/
inductive Number where
  /-- A whole number. -/
  | int (n : Int)
  /-- A binary fraction. -/
  | float (x : Float)
  deriving DecidableEq

namespace Number

/-- The form that all numbers of one value share: whole where the value is
whole. -/
def reduced : Number → Number
  | int n => int n
  | float x =>
    match Binary.shape x with
    | .undefined => float Binary.notANumber
    | .infinite negative => float (Binary.infinity negative)
    | .finite negative m q =>
      match Shape.whole? negative m q with
      | some n => int n
      | none => float x

/-- Whether two numbers have the same value. -/
def same (a b : Number) : Bool := a.reduced = b.reduced

/-- Whether a number is none. -/
def isUndefined : Number → Bool
  | int _ => false
  | float x => Binary.shape x = .undefined

end Number

end CallFlow
