import CallFlow.Number.Decimal

/-!
# Numbers written as texts

A request may write a number as a text, and pydantic reads it. This is how the
stand-in for pydantic does (`Packages.number`); nothing that is proved of the
service depends on it.

The text is first read as a whole number, which is done in steps: spaces around
it and a plus sign are dropped, then zeros in front, then a point with nothing
but zeros behind it, then the low lines that group the digits. What is left has
to be a whole number as JSON writes one.

Low lines between zeros in front go with the zeros, and a minus sign may
stand behind them as well as in front. Low lines are only dropped where none
stands at an end and no two stand together. A point needs at least one zero
behind it, for otherwise the text is that of a fraction.
-/

namespace CallFlow.NumberText

/-- Removes the low lines of a text that neither starts nor ends with one
and holds no two together. -/
def dropLowLines? (cs : List Char) : Option (List Char) :=
  let doubled := (cs.zip (cs.drop 1)).any (fun p => p.1 = '_' && p.2 = '_')
  if cs.head? = some '_' || cs.getLast? = some '_' || doubled then none
  else some (cs.filter (· ≠ '_'))

/-- What a text is as a whole number. -/
inductive Whole where
  /-- It is this one. -/
  | number (n : Int)
  /-- It has more digits than are read. -/
  | tooLong
  /-- It is none. -/
  | unreadable
  deriving DecidableEq, Repr

/-- How many characters of a whole number are read at most, its sign
included. -/
def longest : Nat := 4300

/-- The text behind zeros in front, of which the last character passed over
was the given one. It is kept if nothing or a point follows. -/
def behindZeros (last : Char) : List Char → Option (List Char)
  | [] => some [last]
  | c :: rest =>
    if c = '0' ∨ c = '_' then behindZeros c rest
    else if c = '.' then some (last :: c :: rest)
    else if c.isDigit ∨ c = '-' then some (c :: rest)
    else none

/-- The text without zeros in front. It has to start with a digit or a
minus sign. -/
def withoutZeros : List Char → Option (List Char)
  | [] => none
  | c :: rest =>
    if c = '0' then behindZeros c rest
    else if c.isDigit ∨ c = '-' then some (c :: rest)
    else none

/-- The text without a point that has zeros behind it and nothing else. -/
def withoutPlaces (cs : List Char) : List Char :=
  match cs.dropWhile (· ≠ '.') with
  | _ :: c :: rest => if (c :: rest).all (· = '0') then cs.takeWhile (· ≠ '.') else cs
  | _ => cs

/-- The text without low lines, where they may be dropped. -/
def withoutLowLines (cs : List Char) : List Char := (dropLowLines? cs).getD cs

/-- Reads a whole number as JSON writes one. -/
def plainWhole (cs : List Char) : Whole :=
  let (negative, digits) := match cs with
    | '-' :: rest => (true, rest)
    | _ => (false, cs)
  let run := digits.takeWhile Char.isDigit
  if run.isEmpty then .unreadable
  else if digits.head? = some '0' then (if digits = ['0'] then .number 0 else .unreadable)
  else if longest < (if negative then 1 else 0) + run.length then .tooLong
  else if run ≠ digits then .unreadable
  else .number (if negative then -(Digit.number run : Int) else Digit.number run)

/-- Reads the text of a whole number. -/
def whole (s : String) : Whole :=
  let cs := Blank.trim Blank.isSpace s.toList
  let (signed, cs) := match cs with
    | '+' :: rest => (true, rest)
    | _ => (false, cs)
  let (negative, digits) := match cs with
    | '-' :: rest => (true, rest)
    | _ => (false, cs)
  if signed && negative then .unreadable
  else
    match withoutZeros digits with
    | none => .unreadable
    | some digits =>
      let digits := withoutLowLines (withoutPlaces digits)
      plainWhole (if negative then '-' :: digits else digits)

/-- Reads the text of a fraction. -/
def fraction? (s : String) : Option Float :=
  match readFloat? (Blank.trim Blank.isSpace s.toList) with
  | some x => some x
  | none => (dropLowLines? s.toList).bind readFloat?

end CallFlow.NumberText
