import CallFlow.Packages.Letter
import CallFlow.Text.Digit
import CallFlow.Text.Pieces

/-!
# Hosts

How the client that requests are tried with tells a host. It is part of the
stand-in for the packages, and nothing that is proved depends on it.

A host is named in one of three ways: by four numbers with points between
them, a *short address*; by up to eight groups of digits of base sixteen
with colons between them, a *long address*, which stands in square
brackets; or by a name. What looks like an address has to be one.

Nearly all goes for a name of plain characters. A name with others is made
of labels with points between them, and each label is spelled with letters,
digits and hyphens.
-/

namespace CallFlow.Host

/-! ## Short addresses -/

/-- Whether a text is a number up to 255 without zeros in front. -/
def isOctet (cs : List Char) : Bool :=
  cs.all Char.isDigit && 1 ≤ cs.length && cs.length ≤ 3 && (cs.length = 1 || cs.head? ≠ some '0')
    && Digit.number cs ≤ 255

/-- Whether a text is four numbers with points between them. -/
def isShort (cs : List Char) : Bool :=
  (pieces '.' cs).length = 4 && (pieces '.' cs).all isOctet

/-- Whether a text looks like a short address: four numbers with any
character between two of them, be it a digit. Of a run of digits every
second one can stand between two numbers. -/
def looksShort (cs : List Char) : Bool :=
  let runs := pieces '.' (cs.map fun c => if c.isDigit then c else '.')
  runs.all (fun run => !run.isEmpty) && runs.length ≤ 4
    && 4 ≤ runs.foldl (fun count run => count + (run.length + 1) / 2) 0

/-! ## Long addresses -/

/-- Whether a text is up to four digits of base sixteen. -/
def isGroup (cs : List Char) : Bool :=
  1 ≤ cs.length && cs.length ≤ 4 && cs.all (fun c => (Digit.hex? c).isSome)

/-- The groups of a long address. A short address in place of the last one
counts as two. -/
def groups? (cs : List Char) : Option (List (List Char)) :=
  let groups := pieces ':' cs
  let last := groups.getLast?.getD []
  if '.' ∈ last then
    if isShort last then some (groups.dropLast ++ [['0'], ['0']]) else none
  else some groups

/-- How many groups stand on one side of a gap. -/
def besideGap? (groups : List (List Char)) : Option Nat :=
  if groups = [[]] then some 0
  else if groups.all isGroup then some groups.length
  else none

/-- Whether groups make up a long address: eight of them, or fewer with one
gap among them, where a group is left out between two colons. -/
def areGroups : List (List Char) → Bool
  | [] => false
  | first :: rest =>
    match rest.dropWhile (fun group => !group.isEmpty) with
    | _ :: next :: behind =>
      match besideGap? (first :: rest.takeWhile (fun group => !group.isEmpty)),
        besideGap? (next :: behind) with
      | some front, some back => front + back ≤ 7
      | _, _ => false
    | _ => rest.length = 7 && (first :: rest).all isGroup

/-- Whether a text is a long address. Behind a percent sign the part of the
network it belongs to may follow. -/
def isLong (cs : List Char) : Bool :=
  let zone := cs.dropWhile (· ≠ '%')
  ((groups? (cs.takeWhile (· ≠ '%'))).map areGroups).getD false
    && (zone.isEmpty || (zone.length ≠ 1 && !(zone.drop 1).contains '%'))

/-! ## Names -/

/-- The points that may stand between two labels. -/
def points : List Char := ['.', '\u3002', '\uff0e', '\uff61']

/-- Whether a text is a label of a name. A hyphen stands neither at an end
nor in both the third and the fourth place. -/
def isLabel (cs : List Char) : Bool :=
  !cs.isEmpty && cs.all (fun c => c = '-' || Letter.spells c)
    && cs.head? ≠ some '-' && cs.getLast? ≠ some '-' && (cs.drop 2).take 2 ≠ ['-', '-']

/-- Whether a text is a name made of labels. A point may stand at its end. -/
def isName (cs : List Char) : Bool :=
  let labels := pieces '.' (cs.map fun c => if points.contains c then '.' else c)
  let labels := if labels.getLast? = some [] then labels.dropLast else labels
  labels.all isLabel

/-! ## Hosts -/

/-- Whether a text can name a host. -/
def isHost (cs : List Char) : Bool :=
  if looksShort cs then isShort cs
  else if cs.head? = some '[' && cs.getLast? = some ']' then isLong (cs.drop 1).dropLast
  else cs.all (fun c => c.toNat < 128) || isName cs

end CallFlow.Host
