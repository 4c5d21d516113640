import CallFlow.Config.Section
import CallFlow.Graph.Basic
import CallFlow.Layout.Grid

/-!
# Loading a workflow into the editor

Loading turns the workflow section into a graph. A node keeps all its
fields, as the data of a node on the canvas; its place is the one stored
with it, or one on the grid. Every item of a node's list of transitions
becomes an edge. The ids of the edges are handed out over the whole
workflow, so that no two edges share one.

Loading is lenient: entries that are no objects are passed over. It fails
only where the nodes are no collection at all, or the kind of a node is
itself a collection.
-/

namespace CallFlow

/-- The place stored with a node. A place without fields counts as none. -/
def storedPosition (raw : Fields) : Value :=
  match Fields.get (Fields.get raw "_metadata").fieldsOrNone "position" with
  | .obj position => .obj position
  | _ => .null

/-- The kind of a node, as a value; a node that names none is standard. -/
def kindOf (data : Fields) : Value := (Fields.get data "type").orElse defaultKind

/-- Turns an entry of the section into a node of the graph. -/
def loadNode (settings : Settings) (total index : Nat) (raw : Fields) : Outcome Value := do
  let kind := kindOf raw
  if !kind.isAtom then .error .wrongKind
  else
    let stored := storedPosition raw
    let position ← if stored.truthy then pure stored
      else Grid.position settings index total
    return .obj [("id", .str (idOf raw)), ("type", .str (boxOf kind)), ("position", position),
      ("data", .obj (Fields.put raw "type" kind))]

/-- Turns the entries of the section into nodes, counting from a number. -/
def loadNodes (settings : Settings) (total : Nat) : Nat → List Fields → Outcome (List Value)
  | _, [] => .ok []
  | index, raw :: rest => do
    let node ← loadNode settings total index raw
    return node :: (← loadNodes settings total (index + 1) rest)

/-- The items of a node's list of transitions; anything else than a list
holds none. -/
def transitionItems (raw : Fields) : List Value :=
  match Fields.get raw "transitions" with
  | .list items => items
  | _ => []

/-- The edges of the entries of the section, none with an id that is taken
already. -/
def loadEdges : List Fields → Option (List String) → List Fields
  | [], _ => []
  | raw :: rest, taken =>
    let (edges, taken) := edgesOfItems (.str (idOf raw)) (transitionItems raw) taken
    edges ++ loadEdges rest taken

/-- The entries of the section that are nodes. -/
def sectionNodes (config : Value) : Outcome (List Fields) := do
  return objectsAmong (← (Fields.get (workflowSection config) "nodes").elementsOrNone)

/-- Loads a workflow. -/
def loadGraph (settings : Settings) (config : Value) : Outcome Graph := do
  let raws ← sectionNodes config
  let nodes ← loadNodes settings raws.length 0 raws
  return ⟨nodes, (loadEdges raws (some [])).map Value.obj⟩

end CallFlow
