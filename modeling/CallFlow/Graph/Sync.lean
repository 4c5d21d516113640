import CallFlow.Graph.Basic
import CallFlow.Value.Equality

/-!
# Keeping lists of transitions in agreement with edges

The edges are the truth about transitions, and the data of a node hold a
copy of its own, for display. The copy *agrees* when it lists, in order,
what the edges from the node say: target, condition and priority of each.
`sync` recomputes the copies that do not agree and leaves every other node
as it is; it reports the ids of the nodes it changed.

An edit knows which nodes its edges start from and recomputes those only,
its *scope*.
-/

namespace CallFlow

/-- Whether two items of a list of transitions say the same. Only objects
do. -/
def sameTransition : Value → Value → Bool
  | .obj a, .obj b =>
    ["target", "condition", "priority"].all fun k => (Fields.get a k).agrees (Fields.get b k)
  | _, _ => false

/-- Whether two lists of transitions say the same, item by item. -/
def transitionsAgree (left right : Value) : Outcome Bool := do
  if (← left.size) ≠ (← right.size) then return false
  else
    let pairs := (← left.elements).zip (← right.elements)
    return pairs.all (fun p => sameTransition p.1 p.2)

/-- The copy of its transitions a node's data hold; a blank one is the
empty list. -/
def cachedTransitions (data : Fields) : Value := (Fields.get data "transitions").orElse (.list [])

/-- Whether a node's copy agrees with some edges. -/
def nodeAgrees (edges : List Value) (node : Fields) : Outcome Bool := do
  let projected ← project edges (idOf node)
  let data := (Fields.get node "data").fieldsOrNone
  transitionsAgree (.list (projected.map Transition.toItem)) (cachedTransitions data)

/-- The node with some transitions as its copy. -/
def withTransitions (node : Fields) (transitions : List Value) : Fields :=
  let data := (Fields.get node "data").fieldsOrNone
  Fields.put node "data" (.obj (Fields.put data "transitions" (.list transitions)))

/-- Brings one node into agreement. A node that is changed is reported
by its id. -/
def syncNode (edges : List Value) (node : Fields) : Outcome (Fields × Option String) := do
  if ← nodeAgrees edges node then return (node, none)
  else
    let projected ← project edges (idOf node)
    return (withTransitions node (projected.map Transition.toItem), some (idOf node))

/-- Whether a node is in a scope; without a scope every node is. -/
def inScope (scope : Option (List String)) (id : String) : Bool :=
  match scope with
  | none => true
  | some ids => ids.contains id

/-- Brings the nodes of a scope into agreement, and reports those that were
changed. -/
def syncNodes (edges : List Value) (scope : Option (List String)) :
    List Value → Outcome (List Value × List String)
  | [] => .ok ([], [])
  | node :: rest => do
    let fields ← node.object
    let (fields, updated) ←
      if inScope scope (idOf fields) then syncNode edges fields else pure (fields, none)
    let (nodes, ids) ← syncNodes edges scope rest
    return (.obj fields :: nodes, updated.toList ++ ids)

/-- Brings a graph into agreement on a scope. -/
def Graph.sync (g : Graph) (scope : Option (List String)) : Outcome Graph := do
  let (nodes, _) ← syncNodes g.edges scope g.nodes
  return ⟨nodes, g.edges⟩

/-- What bringing a graph document into agreement comes to. -/
structure Synced where
  /-- The document after it. -/
  revision : Revision
  /-- The ids of the nodes that were changed, in order. -/
  updated : List String

/-- Brings a graph document into agreement, on all nodes or on those whose
ids a collection holds. -/
def sync (document : Value) (ids : Option Value) : Outcome Synced := do
  let edges ← edgesOf document
  let scope ← match ids with
    | none => pure none
    | some ids => some <$> ids.idSet
  let (nodes, updated) ← syncNodes edges scope (← nodesOf document)
  if updated.isEmpty then return ⟨← Revision.unchanged document, []⟩
  else return ⟨.rebuilt ⟨nodes, edges⟩, updated⟩

end CallFlow
