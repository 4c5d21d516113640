import CallFlow.Layout.Rank
import CallFlow.Layout.Size

/-!
# Placement

A layout *flows* along one axis. Ranks follow each other along the flow,
each as deep as its deepest box, and the boxes of a rank stand side by side
across the flow. Every box is centred in the depth of its rank. For a flow
up or to the left the picture is turned over at the end.

The arithmetic asks for little – sums, differences and halves – and is
written for any `Coordinate`, so that it can be carried out in binary
fractions and reasoned about in exact numbers.
-/

namespace CallFlow

/-- Numbers a layout can be computed in. -/
class Coordinate (α : Type) extends Add α, Sub α where
  /-- A length, as a coordinate. -/
  ofLength : Nat → α
  /-- Half of a coordinate. -/
  half : α → α

instance : Coordinate Float where
  ofLength := Float.ofNat
  half x := x / 2.0

/-- The axis ranks follow each other along, and in which sense. -/
structure Flow where
  /-- Whether ranks follow each other from side to side. -/
  horizontal : Bool
  /-- Whether the first rank is the last one along the axis. -/
  reversed : Bool
  deriving DecidableEq, Repr

/-- A point of the canvas. -/
structure Point (α : Type) where
  /-- How far across the canvas. -/
  x : α
  /-- How far down the canvas. -/
  y : α
  deriving DecidableEq

/-- The distances of a layout. -/
structure Spacing (α : Type) where
  /-- From the edge of the canvas to the first boxes. -/
  margin : α
  /-- From one rank to the next. -/
  rank : α
  /-- From one box of a rank to the next. -/
  node : α

namespace Placement

variable {α : Type} [Coordinate α]

open Coordinate

/-- How much room a box takes along the flow. -/
def depth (flow : Flow) (size : BoxSize) : Nat :=
  if flow.horizontal then size.width else size.height

/-- How much room a box takes across the flow. -/
def breadth (flow : Flow) (size : BoxSize) : Nat :=
  if flow.horizontal then size.height else size.width

/-- The point at a distance along the flow and one across it. -/
def point (flow : Flow) (along across : α) : Point α :=
  if flow.horizontal then ⟨along, across⟩ else ⟨across, along⟩

/-- The centres of the boxes of a rank. The rank starts at `along` and is
`deep`; the boxes not placed yet start at `across`. -/
def placeRow (flow : Flow) (spacing : α) (along : α) (deep : Nat) :
    α → List (String × BoxSize) → List (String × Point α)
  | _, [] => []
  | across, (id, size) :: rest =>
    let room : α := ofLength (breadth flow size)
    (id, point flow (along + half (ofLength deep)) (across + half room)) ::
      placeRow flow spacing along deep (across + (room + spacing)) rest

/-- The depth of a rank. -/
def rowDepth (flow : Flow) (row : List (String × BoxSize)) : Nat :=
  row.foldl (fun d box => max d (depth flow box.2)) 0

/-- The centres of all boxes, rank by rank, and where a further rank would
start. -/
def placeRows (flow : Flow) (spacing : Spacing α) :
    α → List (List (String × BoxSize)) → List (String × Point α) × α
  | along, [] => ([], along)
  | along, [] :: rest => placeRows flow spacing along rest
  | along, row :: rest =>
    let deep := rowDepth flow row
    let centres := placeRow flow spacing.node along deep spacing.margin row
    let (more, ending) := placeRows flow spacing (along + (ofLength deep + spacing.rank)) rest
    (centres ++ more, ending)

/-- A point of the picture turned over along the flow, within its extent. -/
def turnOver (flow : Flow) (extent : α) (p : Point α) : Point α :=
  if flow.horizontal then ⟨extent - p.x, p.y⟩ else ⟨p.x, extent - p.y⟩

/-- The centres of the boxes in some rows, turned over where the flow is
reversed. -/
def centres (flow : Flow) (spacing : Spacing α) (rows : List (List (String × BoxSize))) :
    List (String × Point α) :=
  let (placed, ending) := placeRows flow spacing spacing.margin rows
  if flow.reversed then
    let extent := ending - spacing.rank + spacing.margin
    placed.map (fun c => (c.1, turnOver flow extent c.2))
  else placed

/-- The upper left corner of a box with a centre. -/
def corner (size : BoxSize) (centre : Point α) : Point α :=
  ⟨centre.x - half (ofLength size.width), centre.y - half (ofLength size.height)⟩

/-- The boxes of each rank, in the order of the nodes. -/
def rows (ranks : List (String × Nat)) (boxes : List (String × BoxSize)) :
    List (List (String × BoxSize)) :=
  (List.range (Rank.nextRank ranks)).map fun r => boxes.filter (fun box => Rank.of ranks box.1 = r)

/-- The edges among some ids. -/
def edgesAmong (ids : List String) (edges : List (String × String)) : List (String × String) :=
  edges.filter (fun e => ids.contains e.1 && ids.contains e.2)

/-- The upper left corners of all boxes, in the order of the nodes. Of
boxes with one id the last one settles their size and their place. -/
def corners (search : Rank.Search) (flow : Flow) (spacing : Spacing α)
    (boxes : List (String × BoxSize)) (edges : List (String × String)) :
    List (Option (Point α)) :=
  let ids := boxes.map Prod.fst
  let latest (box : String × BoxSize) : String × BoxSize :=
    (box.1, (boxes.reverse.lookup box.1).getD box.2)
  let boxes := boxes.map latest
  let ranks := Rank.assign search ids (edgesAmong ids edges)
  let placed := (centres flow spacing (rows ranks boxes)).reverse
  boxes.map fun box => (placed.lookup box.1).map (corner box.2)

end Placement

end CallFlow
