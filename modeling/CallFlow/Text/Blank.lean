/-!
# Blank characters

Two classes of blank characters are in use. A **space** is a character
that separates words: the plain space, the tabs and line ends, and the
spaces of other widths. The **separators** of files, groups, records and
units are blank as well, where the ends of a text are trimmed, though no
number may be surrounded by them.
-/

namespace CallFlow.Blank

/-- Whether a character separates words. -/
def isSpace (c : Char) : Bool :=
  let n := c.toNat
  (9 ≤ n && n ≤ 13) || n = 0x20 || n = 0x85 || n = 0xa0 || n = 0x1680
    || (0x2000 ≤ n && n ≤ 0x200a) || n = 0x2028 || n = 0x2029 || n = 0x202f
    || n = 0x205f || n = 0x3000

/-- Whether a character is blank: a space, or one of the four separators. -/
def isBlank (c : Char) : Bool := isSpace c || (0x1c ≤ c.toNat && c.toNat ≤ 0x1f)

/-- A text without the characters of a class at its two ends. -/
def trim (p : Char → Bool) (cs : List Char) : List Char :=
  ((cs.dropWhile p).reverse.dropWhile p).reverse

/-- A text without blank characters at its two ends. -/
def strip (s : String) : String := String.ofList (trim isBlank s.toList)

end CallFlow.Blank
