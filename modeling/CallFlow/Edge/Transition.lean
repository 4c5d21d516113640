import CallFlow.Condition.Basic
import CallFlow.Edge.Identifier

/-!
# Transitions and edges

A *transition* says where a call goes on from a node, under which condition
and with which priority. It is written in two ways: in the configuration as
an item of its node's list, and in the editor's graph as an *edge* of its
own, which repeats the condition as its label.

`Transition.ofItem` reads the first form and `Transition.ofEdge` the
second; `Transition.toItem` and `Transition.toEdge` write them. A list of
items becomes edges with `edgesOfItems`, and `outgoing` collects the
transitions of one node back from the edges.
-/

namespace CallFlow

/-- Where a call goes on, and when. -/
structure Transition where
  /-- The condition, as it is written. -/
  condition : String
  /-- The id of the node the call goes on with. -/
  target : String
  /-- The priority among the transitions of a node. -/
  priority : Value
  deriving DecidableEq

/-- The priority of a transition that states none. -/
def defaultPriority : Value := .int 0

namespace Transition

/-- Reads an item of a node's list of transitions. -/
def ofItem (item : Fields) : Transition where
  condition := (Fields.get item "condition").textOr defaultCondition
  target := (Fields.get item "target").idText
  priority := (Fields.get item "priority").orElse defaultPriority

/-- Writes an item of a node's list of transitions. -/
def toItem (t : Transition) : Value :=
  .obj [("condition", .str t.condition), ("target", .str t.target), ("priority", t.priority)]

/-- Reads an edge. Where its data state no condition the label does. -/
def ofEdge (edge : Fields) : Transition :=
  let data := (Fields.get edge "data").fieldsOrNone
  let condition := (Fields.get data "condition").orElse (Fields.get edge "label")
  { condition := condition.textOr defaultCondition
    target := (Fields.get edge "target").idText
    priority := (Fields.get data "priority").orElse defaultPriority }

/-- Writes an edge. -/
def toEdge (id : String) (source : Value) (t : Transition) : Fields :=
  [("id", .str id), ("source", source), ("target", .str t.target), ("label", .str t.condition),
    ("data", .obj [("condition", .str t.condition), ("priority", t.priority)])]

end Transition

/-! ## Ends of an edge -/

/-- The id of an edge, or of a node. -/
def idOf (element : Fields) : String := (Fields.get element "id").idText

/-- The id of the node an edge starts from. -/
def sourceOf (edge : Fields) : String := (Fields.get edge "source").idText

/-- The id of the node an edge leads to. -/
def targetOf (edge : Fields) : String := (Fields.get edge "target").idText

/-! ## From a list of items to edges, and back -/

/-- The edges of a node's items, from an ordinal on. An item that is no
object has no edge, and still counts. -/
def edgesFrom (source : Value) : Nat → List Value → Option (List String) →
    List Fields × Option (List String)
  | _, [], taken => ([], taken)
  | ordinal, .obj item :: rest, taken =>
    let t := Transition.ofItem item
    let (id, taken) := EdgeId.issue taken source.text t.target ordinal
    let (edges, taken) := edgesFrom source (ordinal + 1) rest taken
    (t.toEdge id source :: edges, taken)
  | ordinal, _ :: rest, taken => edgesFrom source (ordinal + 1) rest taken

/-- The edges of a node's items, and the ids taken then. -/
def edgesOfItems (source : Value) (items : List Value) (taken : Option (List String)) :
    List Fields × Option (List String) :=
  edgesFrom source 0 items taken

/-- The transitions of a node: those of the edges that start from it, in
their order. -/
def outgoing (edges : List Fields) (id : String) : List Transition :=
  (edges.filter (fun e => sourceOf e = id)).map Transition.ofEdge

/-- The transitions of a node, read off a list that should hold edges. -/
def project (edges : List Value) (id : String) : Outcome (List Transition) := do
  return outgoing (← objects edges) id

end CallFlow
