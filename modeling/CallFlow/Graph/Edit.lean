import CallFlow.Graph.Sync

/-!
# Edits of a graph

There are two directions of editing. On the canvas an edge is drawn,
removed or relabelled, and the copies of the transitions follow. In the
panel the list of one node is replaced as a whole, and its edges follow:
they are dropped and made anew. Either way the nodes whose edges changed
are brought into agreement before the edit is done.

Every edit takes a graph document and hands back a `Revision`. An edit
aimed at something that is not there keeps the document.
-/

namespace CallFlow

/-- The id of an element that should be an object. -/
def elementId (element : Value) : Outcome String := do return idOf (← element.object)

/-- The ids of the elements of a list. -/
def elementIds (elements : List Value) : Outcome (List String) := elements.mapM elementId

/-! ## Edits on the canvas -/

/-- Draws an edge between two nodes. Both ends have to be named. -/
def connectNodes (document source target condition priority : Value) : Outcome Revision := do
  if !source.truthy || !target.truthy then Revision.unchanged document
  else
    let edges ← edgesOf document
    let taken ← elementIds edges
    let id := (EdgeId.allocate taken source.text target.text edges.length).1
    let edge : Fields := [("id", .str id), ("source", source), ("target", target),
      ("label", condition), ("data", .obj [("condition", condition), ("priority", priority)])]
    let nodes ← nodesOf document
    let scope ← (Value.list [source]).idSet
    return .rebuilt (← Graph.sync ⟨nodes, edges ++ [.obj edge]⟩ (some scope))

/-- Removes the edges whose ids a collection holds. -/
def removeEdges (document ids : Value) : Outcome Revision := do
  let doomed ← ids.idSet
  let edges ← edgesOf document
  let fields ← objects edges
  let kept := fields.filter (fun e => !doomed.contains (idOf e))
  if kept.length = fields.length then Revision.unchanged document
  else
    let sources := (fields.filter (fun e => doomed.contains (idOf e))).map sourceOf
    let nodes ← nodesOf document
    return .rebuilt (← Graph.sync ⟨nodes, kept.map Value.obj⟩ (some sources))

/-- Writes a value under a key, unless it is null. -/
def putUnlessNull (fields : Fields) (key : String) (value : Value) : Fields :=
  if value = .null then fields else Fields.put fields key value

/-- An edge with another condition and priority; null leaves either as it
is. -/
def relabel (edge : Fields) (condition priority : Value) : Outcome Fields := do
  let data ← ((Fields.get edge "data").orElse (.obj [])).asFields
  let data := putUnlessNull (putUnlessNull data "condition" condition) "priority" priority
  return Fields.put (putUnlessNull edge "label" condition) "data" (.obj data)

/-- Relabels the edges of an id. Says where the last of them starts. -/
def relabelEdges (id condition priority : Value) :
    List Value → Outcome (List Value × Option String)
  | [] => .ok ([], none)
  | edge :: rest => do
    let fields ← edge.object
    if Value.str (idOf fields) = id then
      let relabelled ← relabel fields condition priority
      let (edges, last) ← relabelEdges id condition priority rest
      return (.obj relabelled :: edges, some (last.getD (sourceOf fields)))
    else
      let (edges, last) ← relabelEdges id condition priority rest
      return (edge :: edges, last)

/-- Gives the edges of an id another condition and priority. -/
def updateEdge (document id condition priority : Value) : Outcome Revision := do
  let (edges, source) ← relabelEdges id condition priority (← edgesOf document)
  match source with
  | none => Revision.unchanged document
  | some source =>
    let nodes ← nodesOf document
    return .rebuilt (← Graph.sync ⟨nodes, edges⟩ (some [source]))

/-! ## Edits in the panel -/

/-- Whether some node of a list has an id. The search ends at the first
one. -/
def hasNode (id : Value) : List Value → Outcome Bool
  | [] => .ok false
  | node :: rest => do
    if Value.str (← elementId node) = id then return true else hasNode id rest

/-- The data of a node an edit may write to: an object, or nothing yet. -/
def editableData (node : Fields) : Outcome Fields :=
  match (Fields.get node "data").orElse (.obj []) with
  | .obj data => .ok data
  | _ => .error .wrongKind

/-- Gives the nodes of an id a list of transitions as their copy. -/
def putCopies (id : Value) (items : List Value) : List Value → Outcome (List Value)
  | [] => .ok []
  | node :: rest => do
    let fields ← node.object
    let node ←
      if Value.str (idOf fields) = id then do
        let data ← editableData fields
        pure (Value.obj (Fields.put fields "data"
          (.obj (Fields.put data "transitions" (.list items)))))
      else pure node
    return node :: (← putCopies id items rest)

/-- Replaces the transitions of a node. What is no object among the new
ones is passed over. -/
def replaceTransitions (document id transitions : Value) : Outcome Revision := do
  let nodes ← nodesOf document
  if !(← hasNode id nodes) then Revision.unchanged document
  else
    let items := (objectsAmong (← transitions.elements)).map Value.obj
    let edges ← objects (← edgesOf document)
    let others := edges.filter (fun e => Value.str (sourceOf e) ≠ id)
    let fresh := (edgesOfItems id items (some (others.map idOf))).1
    let nodes ← putCopies id items nodes
    return .rebuilt (← Graph.sync ⟨nodes, (others ++ fresh).map Value.obj⟩ (some [id.text]))

/-- A node with changes laid over its data. Where they change its kind the
node is drawn by another box. -/
def changeNode (node changes : Fields) : Outcome Fields := do
  let data := Fields.overlay (← editableData node) changes
  let node := Fields.put node "data" (.obj data)
  if Fields.has changes "type" then
    return Fields.put node "type" (.str (boxOf (Fields.get data "type")))
  else return node

/-- Lays changes over the data of the nodes of an id. -/
def changeNodes (id : Value) (changes : Fields) : List Value → Outcome (List Value)
  | [] => .ok []
  | node :: rest => do
    let fields ← node.object
    let node ← if Value.str (idOf fields) = id then Value.obj <$> changeNode fields changes
      else pure node
    return node :: (← changeNodes id changes rest)

/-- Changes fields of a node's data. The id stays what it is, and a change
of the transitions is an edit of the panel. -/
def updateNodeData (document id updates : Value) : Outcome Revision := do
  let changes := Fields.erase (← updates.asFields) "id"
  let before ← nodesOf document
  let nodes ← changeNodes id (Fields.erase changes "transitions") before
  if !(← hasNode id before) then Revision.unchanged document
  else
    let changed : Graph := ⟨nodes, ← edgesOf document⟩
    match Fields.get? changes "transitions" with
    | none => return .rebuilt changed
    | some transitions =>
      let items ← transitions.elementsOrNone
      match ← replaceTransitions changed.toValue id (.list items) with
      | .kept => return .rebuilt changed
      | .rebuilt graph => return .rebuilt graph

/-! ## Removing and adding nodes -/

/-- Removes a node, with every edge that starts from it or leads to it. -/
def deleteNode (document id : Value) : Outcome Revision := do
  let nodes := (← objects (← nodesOf document)).filter (fun n => Value.str (idOf n) ≠ id)
  let edges ← objects (← edgesOf document)
  let kept := edges.filter
    (fun e => Value.str (sourceOf e) ≠ id && Value.str (targetOf e) ≠ id)
  let affected := (edges.filter (fun e => Value.str (targetOf e) = id)).map sourceOf
  if !id.isAtom then .error .wrongKind
  else
    let scope := affected.filter (fun s => Value.str s ≠ id)
    return .rebuilt (← Graph.sync ⟨nodes.map Value.obj, kept.map Value.obj⟩ (some scope))

end CallFlow
