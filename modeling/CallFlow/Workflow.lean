import CallFlow.Config.Saving
import CallFlow.Graph.Sync
import CallFlow.Layout.Arrange
import CallFlow.Validation.Check
import CallFlow.Json.Canonical
import CallFlow.Digest.Sha256

/-!
# Working on a workflow

The four things an editor does with a workflow as a whole. It *opens* a
configuration: the graph is loaded, arranged if asked, and brought into
agreement. It *reconciles* a graph that came from elsewhere. It asks
whether there is anything to save – whether the document the graph would be
saved as is *dirty*, that is, differs from the one an unedited graph would
be saved as. And it *deploys*: the document is handed over only if nothing
is wrong with the graph.

Whether two documents differ is decided on the digests of their canonical
texts, so the order of fields does not count.
-/

namespace CallFlow

/-- Opens a configuration. -/
def openWorkflow (settings : Settings) (config : Value) (arranged : Bool) (direction : Value)
    (placed : Option Value) (search : Rank.Search := Rank.distances) : Outcome Value := do
  let graph ← loadGraph settings config
  let graph ← if arranged then
      arrange (LayoutOptions.ofSettings settings direction) placed graph.toValue search
    else pure graph
  return (← sync graph.toValue none).revision.apply graph.toValue

/-- The digest of a document, of which all keys have to be texts. -/
def digest (document : Value) : Outcome String :=
  if Json.textKeyed document then .ok (Sha256.hexDigest (Json.canonical document))
  else .error .wrongKind

/-- Whether there is anything to save. -/
structure DirtyState where
  /-- The document the graph would be saved as. -/
  config : Value
  /-- Whether it differs from the one saved before. -/
  dirty : Bool
  /-- Its digest. -/
  digest : String

/-- The state as a value. -/
def DirtyState.toValue (s : DirtyState) : Value :=
  .obj [("config", s.config), ("dirty", .bool s.dirty), ("hash", .str s.digest)]

/-- Compares a graph with the document it was loaded from. Without such a
document the graph is always dirty. -/
def dirtyState (settings : Settings) (request : SaveRequest) (graph : Value) :
    Outcome DirtyState := do
  let current ← saveGraph settings request graph
  let hash ← digest current
  if !request.previous.truthy then return ⟨current, true, hash⟩
  else
    let unedited ← loadGraph settings request.previous
    let baseline ← saveGraph settings { request with edits := .null } unedited.toValue
    return ⟨current, hash ≠ (← digest baseline), hash⟩

/-- What asking to deploy a graph comes to. -/
inductive Deployment where
  /-- The document that is deployed. -/
  | accepted (config : Value)
  /-- What is wrong with the graph. -/
  | rejected (problems : List Problem)

/-- Deploys a graph, unless something is wrong with it. -/
def deploy (settings : Settings) (request : SaveRequest) (graph : Value) : Outcome Deployment := do
  let config ← saveGraph settings request graph
  let problems ← problemsOf graph (Fields.get (workflowSection config) "initial_node")
  return if problems.isEmpty then .accepted config else .rejected problems

/-- What somebody is told whose graph is not deployed. -/
def rejectionMessage (problems : List Problem) : String :=
  "Workflow has " ++ String.ofList (intText problems.length) ++
    " validation error(s) and cannot be deployed."

/-- Brings a graph into agreement, and reports the nodes that were
changed. -/
def reconcile (document : Value) : Outcome Value := do
  let synced ← sync document none
  return .obj [("graph", synced.revision.apply document),
    ("updated_node_ids", .list (synced.updated.map Value.str))]

end CallFlow
