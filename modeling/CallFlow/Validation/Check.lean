import CallFlow.Validation.Problem
import CallFlow.Config.Loading
import CallFlow.Text.Blank

/-!
# Checking a workflow

`problemsOf` lists everything that is wrong with a graph. Each rule is
checked on its own, so no problem hides another. The rules come in a fixed
order: ids, the ends of edges, an end of the call, the initial node, and
then, node by node, what the node's kind needs.

Conditions are not checked, since each can be read, and neither is whether
the end of the call can be reached.
-/

namespace CallFlow

/-- The kind of a node of the graph, as it is written. -/
def kindText (node : Fields) : String :=
  (Fields.get (Fields.get node "data").fieldsOrNone "type").textOr NodeKind.standard.name

/-- What is wrong with the ids of nodes. An id is complained of once, where
it first occurs. -/
def idProblems (ids : List String) : List Problem :=
  ids.eraseDups.filterMap fun id =>
    if id = "" then some .idMissing
    else if 1 < ids.count id then some (.idRepeated id)
    else none

/-- What is wrong with the ends of an edge. -/
def endProblems (ids : List String) (edge : Fields) : List Problem :=
  (if sourceOf edge ∈ ids then [] else [.endMissing .source (idOf edge) (sourceOf edge)]) ++
    (if targetOf edge ∈ ids then [] else [.endMissing .target (idOf edge) (targetOf edge)])

/-- Whether some node ends the call. -/
def endCallProblems (nodes : List Fields) : List Problem :=
  if nodes.any (fun n => kindText n = NodeKind.endCall.name) then [] else [.noEndCall]

/-- Whether the initial node is there; null asks for none. -/
def initialNodeProblems (ids : List String) (initial : Value) : Outcome (List Problem) := do
  if initial = .null then return []
  else if ← initial.isIdIn ids then return []
  else return [.initialNodeMissing initial.text]

/-- Complains unless exactly one of two ways is taken. -/
def exactlyOne (one other : Bool) (neither both : Problem) : List Problem :=
  match one, other with
  | false, false => [neither]
  | true, true => [both]
  | _, _ => []

/-- Whether a value is a list that holds something. -/
def isNonemptyList : Value → Bool
  | .list (_ :: _) => true
  | _ => false

/-- What a node lacks that its kind needs. -/
def contentProblems (node : Fields) : List Problem :=
  let data := (Fields.get node "data").fieldsOrNone
  let states (key : String) : Bool := (Fields.get data key).truthy
  let id := idOf node
  match NodeKind.ofName? (kindText node) with
  | some .standard =>
    exactlyOne (states "system_prompt") (states "static_text")
      (.contentMissing id) (.contentDoubled id)
  | some .retrieveVariable =>
    exactlyOne (isNonemptyList (Fields.get data "variables"))
      (states "variable_name" && states "extraction_prompt")
      (.variablesMissing id) (.variablesDoubled id)
  | some .agentTransfer =>
    if Blank.strip (Fields.get data "target_agent_id").idText = "" then [.agentMissing id] else []
  | _ => []

/-- Everything that is wrong with some nodes and edges and an initial
node. -/
def problemsAmong (nodes edges : List Fields) (initial : Value) : Outcome (List Problem) := do
  let ids := nodes.map idOf
  let atStart ← initialNodeProblems ids initial
  return idProblems ids ++ edges.flatMap (endProblems ids) ++ endCallProblems nodes ++ atStart ++
    nodes.flatMap contentProblems

/-- Everything that is wrong with a graph document and an initial node. -/
def problemsOf (document initial : Value) : Outcome (List Problem) := do
  let nodes ← nodesOf document
  let edges ← edgesOf document
  problemsAmong (objectsAmong nodes) (objectsAmong edges) initial

/-- Everything that is wrong with a configuration. -/
def problemsOfConfig (config : Value) : Outcome (List Problem) := do
  let graph ← loadGraph Settings.default config
  let initial := match Fields.get (workflowSection config) "initial_node" with
    | .null => Value.null
    | stated => .str stated.text
  problemsOf graph.toValue initial

end CallFlow
