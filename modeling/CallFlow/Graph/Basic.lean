import CallFlow.Edge.Transition

/-!
# Editor graphs

What an editor shows of a workflow is a graph: *nodes* that have a place on
the canvas, and *edges*, one for each transition. As a document a graph is
an object with a list under either key, where a missing list is empty; what
the lists hold is looked at only by those who need to.

`Graph` is the pair of lists. An edit of a graph document hands back a
`Revision`: either the document is *kept*, and nothing at all has changed,
or it is *rebuilt* as a graph of its own. The difference decides whether
there is anything to undo.
-/

namespace CallFlow

/-- The nodes and edges of a workflow in the editor. -/
structure Graph where
  /-- The nodes, in order. -/
  nodes : List Value
  /-- The edges, in order. -/
  edges : List Value
  deriving DecidableEq

namespace Graph

/-- The graph as a document. -/
def toValue (g : Graph) : Value := .obj [("nodes", .list g.nodes), ("edges", .list g.edges)]

end Graph

/-- The nodes a graph document lists. -/
def nodesOf (document : Value) : Outcome (List Value) := do
  (Fields.get (← document.object) "nodes").elementsOrNone

/-- The edges a graph document lists. -/
def edgesOf (document : Value) : Outcome (List Value) := do
  (Fields.get (← document.object) "edges").elementsOrNone

/-- The graph a document describes. -/
def Graph.ofDocument (document : Value) : Outcome Graph := do
  return ⟨← nodesOf document, ← edgesOf document⟩

@[simp] theorem nodesOf_toValue (g : Graph) : nodesOf g.toValue = .ok g.nodes := by
  cases h : g.nodes <;>
    simp [nodesOf, Graph.toValue, Value.object, Fields.get, Fields.get?, bind, Except.bind,
      Value.elementsOrNone, Value.truthy, Value.elements, h]

@[simp] theorem edgesOf_toValue (g : Graph) : edgesOf g.toValue = .ok g.edges := by
  cases h : g.edges <;>
    simp [edgesOf, Graph.toValue, Value.object, Fields.get, Fields.get?, bind, Except.bind,
      Value.elementsOrNone, Value.truthy, Value.elements, h]

/-! ## Revisions -/

/-- What an edit of a graph document hands back. -/
inductive Revision where
  /-- The very document that was given. -/
  | kept
  /-- A graph built anew, whether or not it says anything else. -/
  | rebuilt (graph : Graph)
  deriving DecidableEq

namespace Revision

/-- The document after a revision. -/
def apply (document : Value) : Revision → Value
  | kept => document
  | rebuilt graph => graph.toValue

/-- Whether the document was kept. -/
def isKept : Revision → Bool
  | kept => true
  | rebuilt _ => false

/-- The revision that changes nothing. A document is kept unless it has
keys besides the two lists; those are dropped. -/
def unchanged (document : Value) : Outcome Revision := do
  let fields ← document.object
  if (Fields.keys fields).all (fun k => k = "nodes" || k = "edges") then return kept
  else return rebuilt (← Graph.ofDocument document)

end Revision

end CallFlow
