import CallFlow.Config.Merge
import CallFlow.Node.Emission

/-!
# Saving the editor's graph

Saving builds the workflow section anew from the graph: each node from its
data, with the transitions its edges say, and the settings by
`mergeSettings`. The section then takes the place of the one in the
document saved before – inside it, where that document wraps its section –
and everything else in the document is left alone.
-/

namespace CallFlow

/-- The place of a node on the canvas, with `0` for what is not known. -/
def canvasPosition (node : Fields) : Value :=
  let position := (Fields.get node "position").fieldsOrNone
  let coordinate (key : String) : Value := (Fields.get? position key).getD (.int 0)
  .obj [("x", coordinate "x"), ("y", coordinate "y")]

/-- Writes what an editor keeps about a node: what was there before, and
the place on the canvas if places are to be kept. -/
def putMetadata (keepPositions : Bool) (node data out : Fields) : Fields :=
  let metadata := Fields.get data "_metadata"
  if keepPositions then
    Fields.put out "_metadata"
      (.obj (Fields.put metadata.fieldsOrNone "position" (canvasPosition node)))
  else if metadata = .null then out
  else Fields.put out "_metadata" metadata

/-- The id of a node of the graph, which its data may state as well. -/
def savedId (node data : Fields) : String :=
  ((Fields.get node "id").orElse (Fields.get data "id")).idText

/-- Saves a node of the graph. -/
def saveNode (edges : List Fields) (keepPositions : Bool) (node : Fields) : Outcome Fields := do
  let data := (Fields.get node "data").fieldsOrNone
  let id := savedId node data
  let transitions := (outgoing edges id).map Transition.toItem
  return putMetadata keepPositions node data (← emitNode data (.str id) (.list transitions))

/-- Saves the nodes of the graph. Entries of the graph that are no objects
are passed over. -/
def saveNodes (graph : Value) (keepPositions : Bool) : Outcome (List Fields) := do
  let edges ← edgesOf graph
  let nodes ← nodesOf graph
  (objectsAmong nodes).mapM (saveNode (objectsAmong edges) keepPositions)

/-- Puts a section into the place of the one a document holds. A document
without fields gets a section of its own. -/
def replaceSection (previous : Value) (workflow : Fields) : Value :=
  match previous with
  | .obj fields =>
    if (wrappedSection? previous).isSome then .obj (Fields.put fields sectionKey (.obj workflow))
    else if fields.isEmpty then .obj [(sectionKey, .obj workflow)]
    else .obj workflow
  | _ => .obj [(sectionKey, .obj workflow)]

/-- What a graph is saved over, and how. -/
structure SaveRequest where
  /-- The document saved before. -/
  previous : Value := .null
  /-- The settings edited since. -/
  edits : Value := .null
  /-- Whether places on the canvas are kept. -/
  keepPositions : Bool := false

/-- Saves a graph: the section is built from the graph and put into the
document saved before. -/
def saveGraph (settings : Settings) (request : SaveRequest) (graph : Value) : Outcome Value := do
  let nodes ← saveNodes graph request.keepPositions
  let saved := Value.list (nodes.map Value.obj)
  let workflow ← mergeSettings settings (workflowSection request.previous) saved request.edits
  return replaceSection request.previous (Fields.put workflow "nodes" saved)

end CallFlow
