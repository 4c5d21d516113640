import CallFlow.Number.Binary
import CallFlow.Text.Blank
import CallFlow.Text.Digit

/-!
# Reading decimal text

A decimal is a sign, a whole number and a power of ten. `Decimal.read?`
reads the plain form – digits, a point with more digits, an exponent – and
`Decimal.toFloat` goes to the nearest binary fraction.

On top of it stands a generous way of reading a number somebody typed, with
digits of any script and a low line between two digits to group them:
`readSetting?` for a setting, `readWhole?` for a whole number. The words for
infinity and for what is no number are read as well.
-/

namespace CallFlow

/-- A decimal: `digits · 10 ^ power`, or its negative. -/
structure Decimal where
  /-- Whether the number is below zero. -/
  negative : Bool
  /-- The digits, as one number. -/
  digits : Nat
  /-- The power of ten the last digit counts. -/
  power : Int
  deriving DecidableEq, Repr

namespace Decimal

/-- Powers of ten from here on are beyond every fraction. -/
def beyond : Int := 310

/-- Powers of ten up to here are closer to zero than every fraction. -/
def vanishing : Int := -330

/-- The binary fraction nearest to a decimal. -/
def toFloat (d : Decimal) : Float :=
  if d.digits = 0 then Binary.nearest d.negative 0 1
  else
    let leading := ((Nat.toDigits 10 d.digits).length : Int) + d.power
    if beyond < leading then Binary.infinity d.negative
    else if leading < vanishing then Binary.nearest d.negative 0 1
    else if 0 ≤ d.power then Binary.nearest d.negative (d.digits * Nat.pow 10 d.power.toNat) 1
    else Binary.nearest d.negative d.digits (Nat.pow 10 (-d.power).toNat)

/-- Splits off a sign; without one the number is not negative. -/
def splitSign : List Char → Bool × List Char
  | '-' :: rest => (true, rest)
  | '+' :: rest => (false, rest)
  | rest => (false, rest)

/-- Reads an exponent to the end of the text; no exponent is `0`. -/
def readExponent? : List Char → Option Int
  | [] => some 0
  | c :: rest =>
    if c = 'e' ∨ c = 'E' then
      let (negative, ds) := splitSign rest
      if ds.isEmpty || !ds.all Char.isDigit then none
      else some (if negative then -(Digit.number ds : Int) else Digit.number ds)
    else none

/-- Reads a decimal that makes up the whole text. At least one digit
stands before or behind the point. -/
def read? (cs : List Char) : Option Decimal :=
  let (negative, cs) := splitSign cs
  let whole := cs.takeWhile Char.isDigit
  let rest := cs.dropWhile Char.isDigit
  let (places, rest) := match rest with
    | '.' :: behind => (behind.takeWhile Char.isDigit, behind.dropWhile Char.isDigit)
    | _ => ([], rest)
  if whole.isEmpty && places.isEmpty then none
  else
    (readExponent? rest).map fun e =>
      ⟨negative, Digit.number (whole ++ places), e - places.length⟩

end Decimal

/-! ## Numbers somebody typed -/

/-- A text in lower case, where only plain letters matter. -/
def lowerPlain (cs : List Char) : List Char := cs.map Char.toLower

/-- Reads the words for infinity and for what is no number, with a sign. -/
def readSpecial? (cs : List Char) : Option Float :=
  let (negative, word) := Decimal.splitSign cs
  let word := lowerPlain word
  if word = "inf".toList ∨ word = "infinity".toList then some (Binary.infinity negative)
  else if word = "nan".toList then some Binary.notANumber
  else none

/-- Reads a decimal or one of the words. -/
def readFloat? (cs : List Char) : Option Float :=
  match Decimal.read? cs with
  | some d => some d.toFloat
  | none => readSpecial? cs

/-- Removes the low lines that group digits. Each has to stand between two
digits; `previous` tells whether the character before was one. -/
def ungroup? (previous : Bool) : List Char → Option (List Char)
  | [] => some []
  | '_' :: c :: rest =>
    if previous && c.isDigit then (ungroup? true rest).map (c :: ·) else none
  | ['_'] => none
  | c :: rest => (ungroup? c.isDigit rest).map (c :: ·)

/-- Reads a setting that is a number. -/
def readSetting? (s : String) : Option Float := do
  let cs := Blank.trim Blank.isSpace (s.toList.map Digit.plain)
  readFloat? (← ungroup? false cs)

/-- How many digits of a whole number are read, and written, at most. -/
def longestWhole : Nat := 4300

/-- Whether a whole number has no more digits than are written. -/
def isWritable (n : Int) : Bool := n.natAbs < Nat.pow 10 longestWhole

/-- Reads a whole number generously: digits of any script with a sign, and a
low line between two digits to group them. -/
def readWhole? (s : String) : Option Int := do
  let cs := Blank.trim Blank.isSpace (s.toList.map Digit.plain)
  let (negative, ds) := Decimal.splitSign cs
  let ds ← ungroup? false ds
  if ds.isEmpty || !ds.all Char.isDigit || longestWhole < ds.length then none
  else some (if negative then -(Digit.number ds : Int) else Digit.number ds)

end CallFlow
