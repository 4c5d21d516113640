import CallFlow.Graph.Basic
import CallFlow.Layout.Options
import CallFlow.Number.Decimal

/-!
# Arranging a graph

Arranging a graph moves its nodes and does nothing else. The places are
found by `layered`, the layout by ranks, or are handed in by whoever has
found places of their own; either way a node without a place stays where it
is.
-/

namespace CallFlow

/-- The box of a node: its id and its size. -/
def boxOfNode (node : Fields) : Outcome (String × BoxSize) := do
  return (idOf node, ← BoxSize.ofValues (Fields.get node "type") (Fields.get node "data"))

/-- The ids of the two ends of an edge. -/
def endsOf (edge : Fields) : String × String := (sourceOf edge, targetOf edge)

/-- A point as a value. -/
def Point.toValue (p : Point Float) : Value := .obj [("x", .float p.x), ("y", .float p.y)]

/-- The node at a place. -/
def moveTo (node : Fields) (place : Value) : Fields := Fields.put node "position" place

/-- Some nodes, each moved to the corner found for its box. -/
def moveAll {α : Type} (write : Point α → Value) (nodes : List Fields)
    (corners : List (Option (Point α))) : List Fields :=
  (nodes.zip corners).map fun (node, corner) => moveTo node ((corner.map write).getD .null)

/-- The layout by ranks, in whatever numbers the distances are stated: the
nodes, each at its place. The flow and the distances are looked at once all
boxes are known. -/
def layeredIn {α : Type} [Coordinate α] (search : Rank.Search) (write : Point α → Value)
    (flow : Outcome Flow) (spacing : Outcome (Spacing α)) (nodes edges : Value) :
    Outcome (List Fields) := do
  if !nodes.truthy then return []
  else
    let nodes ← objects (← nodes.elements)
    let edges ← objects (← edges.elements)
    let boxes ← nodes.mapM boxOfNode
    let flow ← flow
    let corners := Placement.corners search flow (← spacing) boxes (edges.map endsOf)
    return moveAll write nodes corners

/-- The layout by ranks in binary fractions, as it is shown on a canvas. -/
def layered (options : LayoutOptions) (nodes edges : Value)
    (search : Rank.Search := Rank.distances) : Outcome (List Fields) :=
  layeredIn search Point.toValue options.flow options.spacing nodes edges

/-- A coordinate somebody handed in, as a binary fraction. -/
def coordinateOf : Value → Outcome Float
  | .str s =>
    match readSetting? s with
    | some x => .ok x
    | none => .error .badContent
  | value => do (← value.number).toFloat

/-- A place somebody handed in, with both its coordinates. -/
def placeOf (position : Value) : Outcome Value := do
  let coordinate (key : String) : Outcome Value :=
    match position with
    | .obj fields =>
      match Fields.get? fields key with
      | some value => .float <$> coordinateOf value
      | none => .error .missingField
    | _ => .error .wrongKind
  return .obj [("x", ← coordinate "x"), ("y", ← coordinate "y")]

/-- The places of some nodes by id. Of nodes with one id the last gives
the place. -/
def placesById (placed : List Fields) : Fields :=
  placed.foldl (fun places node => Fields.put places (idOf node) (Fields.get node "position")) []

/-- A node at the place found for it, or where it is if none was found. -/
def rearrange (places : Fields) (node : Value) : Outcome Value := do
  let fields ← node.object
  match Fields.get places (idOf fields) with
  | .null => return node
  | position => return .obj (moveTo fields (← placeOf position))

/-- Moves the nodes of a graph, to places handed in or to those the layout
by ranks finds. -/
def arrange (options : LayoutOptions) (placed : Option Value) (document : Value)
    (search : Rank.Search := Rank.distances) : Outcome Graph := do
  let nodes ← nodesOf document
  let edges ← edgesOf document
  let found ← match placed with
    | some places => do objects (← places.elements)
    | none => layered options (.list nodes) (.list edges) search
  return ⟨← nodes.mapM (rearrange (placesById found)), edges⟩

end CallFlow
