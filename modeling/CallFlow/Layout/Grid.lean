import CallFlow.Settings.Basic
import CallFlow.Value.Arithmetic
import CallFlow.Number.Root

/-!
# The grid

Nodes without a place of their own are put on a grid, row by row. The grid
is about as wide as it is high: it has as many columns as the square root
of the number of nodes, rounded up.

`position` places the nodes of a workflow, which can be counted. A number
and a count may also be handed in as values; `positionAt` then refuses what
cannot be calculated with, and agrees with `position` elsewhere.
-/

namespace CallFlow.Grid

/-- The number of columns for a number of nodes; there is at least one. -/
def columns (count : Nat) : Nat := max 1 (Root.ceilingRoot (Binary.keepDigits (max count 1)) 1)

/-- Where the cell with a number starts. -/
def cellStart (cell origin : Value) (place : Nat) : Outcome Value := do
  (← cell.timesCount place).plus origin

/-- The place of the node with a number, counted from zero, among a number
of nodes. -/
def position (settings : Settings) (index count : Nat) : Outcome Value := do
  let columns := columns count
  return .obj [("x", ← cellStart settings.gridCellWidth settings.gridOrigin (index % columns)),
    ("y", ← cellStart settings.gridCellHeight settings.gridOrigin (index / columns))]

theorem position_default (index count : Nat) :
    ∃ place, position Settings.default index count = .ok place := ⟨_, rfl⟩

/-! ## Numbers handed in as values -/

/-- The number of columns for a number of nodes of either kind. -/
def columnsFor (total : Number) : Outcome Nat :=
  match total.atLeastOne with
  | .int n => do
    let _ ← (Number.int n).toFloat
    return columns n.toNat
  | .float x =>
    match Binary.shape x with
    | .undefined => .error .badContent
    | .infinite _ => .error .tooLarge
    | .finite _ m q => .ok (max 1 (Root.ceilingRoot (Shape.ratio m q).1 (Shape.ratio m q).2))

/-- Where a cell starts whose number is of either kind, and may be below
zero. -/
def offset (cell origin : Value) (place : Number) : Outcome Value := do
  (← cell.times place).plus origin

/-- The place for a number of a node and a number of nodes. -/
def positionAt (settings : Settings) (index total : Value) : Outcome Value := do
  let columns ← columnsFor (← total.number)
  let (row, column) ← (← index.number).divideByStep columns
  return .obj [("x", ← offset settings.gridCellWidth settings.gridOrigin column),
    ("y", ← offset settings.gridCellHeight settings.gridOrigin row)]

end CallFlow.Grid
