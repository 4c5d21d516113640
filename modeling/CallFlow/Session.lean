import CallFlow.Config.Saving
import CallFlow.Node.Template

/-!
# Editor sessions

A session is one person editing one workflow: the graph as it is now, what
is selected, and the graphs there were before each edit, which `undo` goes
back to. At most one thing is selected, a node or an edge.

A session starts with every node in agreement with the edges. A `Step` that
edits the graph records the graph before it, unless the edit kept the very
same document, so that undoing always takes back something. A step may meet
a fault; what it had done by then stays done, and `Session.step` therefore
hands back the session in either case.
-/

namespace CallFlow

/-- What is selected. -/
inductive Selection where
  /-- Nothing. -/
  | none
  /-- A node, by its id. -/
  | node (id : Value)
  /-- An edge, by its id. -/
  | edge (id : Value)
  deriving DecidableEq

namespace Selection

/-- Selects a node; null selects nothing. -/
def ofNode (id : Value) : Selection := if id = .null then .none else .node id

/-- Selects an edge; null selects nothing. -/
def ofEdge (id : Value) : Selection := if id = .null then .none else .edge id

/-- The id of the node that is selected, or null. -/
def nodeId : Selection → Value
  | .node id => id
  | _ => .null

/-- The id of the edge that is selected, or null. -/
def edgeId : Selection → Value
  | .edge id => id
  | _ => .null

/-- What is selected as two ids, of a node and of an edge. An editor that keeps both
clears one where it sets the other (`ids_ofNode`, `ids_ofEdge`). -/
def ids (selection : Selection) : Value × Value := (selection.nodeId, selection.edgeId)

theorem ids_ofNode (id : Value) : (ofNode id).ids = (id, .null) := by
  rw [ofNode]
  split
  next hnull => rw [hnull]; rfl
  next => rfl

theorem ids_ofEdge (id : Value) : (ofEdge id).ids = (.null, id) := by
  rw [ofEdge]
  split
  next hnull => rw [hnull]; rfl
  next => rfl

end Selection

/-- The state of a session. -/
structure Session where
  /-- The graph as it is now. -/
  graph : Value
  /-- What is selected. -/
  selection : Selection := .none
  /-- The graphs before each edit, the latest first. -/
  history : List Value := []
  deriving DecidableEq

/-- Something done in a session. -/
inductive Step where
  /-- Selects a node. -/
  | selectNode (id : Value)
  /-- Selects an edge. -/
  | selectEdge (id : Value)
  /-- Selects nothing. -/
  | clearSelection
  /-- Draws an edge. -/
  | connect (source target condition priority : Value)
  /-- Removes an edge. -/
  | deleteEdge (id : Value)
  /-- Gives an edge another condition and priority. -/
  | relabelEdge (id condition priority : Value)
  /-- Changes fields of a node. -/
  | updateNode (id updates : Value)
  /-- Replaces the transitions of a node. -/
  | setTransitions (id transitions : Value)
  /-- Adds a node. -/
  | addNode (kind position id : Value) (draw : Draw)
  /-- Removes a node. -/
  | deleteNode (id : Value)
  /-- Takes back the latest edit. -/
  | undo
  /-- Saves the graph. -/
  | save (request : SaveRequest)

namespace Session

/-- The session after a step, and what the step answered. -/
abbrev Result := Session × Outcome Value

/-- Starts a session on a graph document. -/
def start (document : Value) : Outcome Session := do
  return { graph := (← sync document none).revision.apply document }

/-- Starts a session on a configuration. -/
def ofConfig (settings : Settings) (config : Value) : Outcome Session := do
  start (← loadGraph settings config).toValue

/-- Takes over what an edit handed back, and records the graph before it
unless that was kept. -/
def commit (s : Session) (revision : Revision) : Session :=
  match revision with
  | .kept => s
  | .rebuilt graph => { s with graph := graph.toValue, history := s.graph :: s.history }

/-- A step that is an edit and answers nothing. -/
def edit (s : Session) (revision : Outcome Revision) : Result :=
  match revision with
  | .ok revision => (s.commit revision, .ok .null)
  | .error fault => (s, .error fault)

/-- Drops a selected edge, if it is the one a value says. -/
def forgetEdge (s : Session) (id : Value) : Session :=
  match s.selection with
  | .edge selected => if selected.agrees id then { s with selection := .none } else s
  | _ => s

/-- Drops a selected node, if it is the one a value says. -/
def forgetNode (s : Session) (id : Value) : Session :=
  match s.selection with
  | .node selected => if selected.agrees id then { s with selection := .none } else s
  | _ => s

/-- The ids of the elements under a key of the graph, which has to have
the key. -/
def idsUnder (s : Session) (key : String) : Outcome (List String) := do
  match Fields.get? (← s.graph.object) key with
  | some elements => elementIds (← elements.elements)
  | none => .error .missingField

/-- Drops the selected edge if it is not among some ids. -/
def keepEdgeAmong (s : Session) (ids : List String) : Result :=
  match s.selection with
  | .edge id =>
    match id.isIdIn ids with
    | .ok true => (s, .ok .null)
    | .ok false => ({ s with selection := .none }, .ok .null)
    | .error fault => (s, .error fault)
  | _ => (s, .ok .null)

/-- Drops the selected node if it is not among some ids. -/
def keepNodeAmong (s : Session) (ids : List String) : Result :=
  match s.selection with
  | .node id =>
    match id.isIdIn ids with
    | .ok true => (s, .ok .null)
    | .ok false => ({ s with selection := .none }, .ok .null)
    | .error fault => (s, .error fault)
  | _ => (s, .ok .null)

/-- Does one thing after another, unless the first met a fault. -/
def andThen (first : Result) (next : Session → Result) : Result :=
  match first with
  | (s, .ok _) => next s
  | (s, .error fault) => (s, .error fault)

/-- Drops the selected edge if the graph no longer has it. -/
def dropLostEdge (s : Session) : Result :=
  match s.idsUnder "edges" with
  | .ok ids => s.keepEdgeAmong ids
  | .error fault => (s, .error fault)

/-- Drops whatever is selected if the graph no longer has it. -/
def dropLost (s : Session) : Result :=
  match (do return (← s.idsUnder "nodes", ← s.idsUnder "edges") : Outcome _) with
  | .ok (nodeIds, edgeIds) => andThen (s.keepNodeAmong nodeIds) (·.keepEdgeAmong edgeIds)
  | .error fault => (s, .error fault)

/-- Goes back to the graph before the latest edit, and answers whether
there was one. -/
def undo (s : Session) : Result :=
  match s.history with
  | [] => (s, .ok (.bool false))
  | graph :: history =>
    andThen (dropLost { s with graph := graph, history := history }) fun s => (s, .ok (.bool true))

/-- Does one step. -/
def step (s : Session) : Step → Result
  | .selectNode id => ({ s with selection := .ofNode id }, .ok .null)
  | .selectEdge id => ({ s with selection := .ofEdge id }, .ok .null)
  | .clearSelection => ({ s with selection := .none }, .ok .null)
  | .connect source target condition priority =>
    s.edit (connectNodes s.graph source target condition priority)
  | .deleteEdge id =>
    andThen (s.edit (removeEdges s.graph (.list [id]))) fun s => (s.forgetEdge id, .ok .null)
  | .relabelEdge id condition priority => s.edit (updateEdge s.graph id condition priority)
  | .updateNode id updates => s.edit (updateNodeData s.graph id updates)
  | .setTransitions id transitions => s.edit (replaceTransitions s.graph id transitions)
  | .addNode kind position id draw =>
    match CallFlow.addNode s.graph kind position id draw with
    | .ok (revision, id) => (s.commit revision, .ok id)
    | .error fault => (s, .error fault)
  | .deleteNode id =>
    andThen (s.edit (CallFlow.deleteNode s.graph id)) fun s => dropLostEdge (s.forgetNode id)
  | .undo => s.undo
  | .save request => (s, saveGraph (Settings.default) request s.graph)

/-- Does some steps, one after the other, whatever they answer. -/
def run (s : Session) (steps : List Step) : Session := steps.foldl (fun s t => (s.step t).1) s

end Session

end CallFlow
