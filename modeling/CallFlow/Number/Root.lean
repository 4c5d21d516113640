import CallFlow.Number.Binary

/-!
# Square roots

How many columns a grid has is decided by a square root that is computed as
a binary fraction and then rounded up. A fraction has only so many digits,
so for large numbers that is not the exact root rounded up: the number
itself, and then its root, first go to the nearest fraction.

All of it happens in whole numbers here. `floorRoot` is the whole part of a
root, and `floorRoot_spec` says so. The root is taken of the number in units
so small that the whole part of it has more digits than a fraction keeps;
what lies beyond it only matters in being something or nothing, and one
further digit records which. Rounding that to the digits of a fraction is
then the rounding of the root itself.
-/

namespace CallFlow.Root

/-- The whole part of the square root, found from that of a quarter: the
root of four times a number is twice the root, and what the division left
over adds at most one. -/
def floorRoot (n : Nat) : Nat :=
  if n = 0 then 0
  else
    let r := 2 * floorRoot (n / 4)
    if (r + 1) * (r + 1) ≤ n then r + 1 else r
termination_by n

/-- The whole part of a square root is the only number whose square is not
above the number while the next square is. -/
theorem floorRoot_spec (n : Nat) :
    floorRoot n * floorRoot n ≤ n ∧ n < (floorRoot n + 1) * (floorRoot n + 1) := by
  induction n using Nat.strongRecOn with
  | _ n ih =>
    rw [floorRoot]
    split
    · omega
    · have hq := ih (n / 4) (by omega)
      generalize floorRoot (n / 4) = s at hq
      have hlow : 4 * (s * s) ≤ n := by omega
      have hhigh : n < 4 * ((s + 1) * (s + 1)) := by omega
      dsimp only
      split <;> grind

/-- The number of a root's digits behind the point that are looked at. -/
def places : Nat := 53

/-- The square root of a ratio, in units of `2 ^ -(places + 1)`; the last
unit records whether anything lies beyond the others. -/
def scaledRoot (num den : Nat) : Nat :=
  let square := num * Nat.pow 4 places / den
  let root := floorRoot square
  2 * root + (if root * root = square then 0 else 1)

/-- The square root of a ratio of at least one, as the nearest fraction, and
that rounded up. -/
def ceilingRoot (num den : Nat) : Nat :=
  let unit := Nat.pow 2 (places + 1)
  (Binary.keepDigits (scaledRoot num den) + unit - 1) / unit

end CallFlow.Root
