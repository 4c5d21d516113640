import CallFlow.Value.Text

/-!
# Problems of a workflow

What can be wrong with a workflow before it may take calls: an id is
missing or repeated, an edge leads nowhere, no node ends the call, the
workflow starts at no node, or a node lacks what its kind needs. Each
problem has a code for programs and a message for people, and says which
node or edge it is about.
-/

namespace CallFlow

/-- The two ends of an edge. -/
inductive EdgeEnd where
  /-- Where the edge starts. -/
  | source
  /-- Where the edge leads. -/
  | target
  deriving DecidableEq, Repr

/-- The name of an end. -/
def EdgeEnd.name : EdgeEnd → String
  | source => "source"
  | target => "target"

/-- Something that is wrong with a workflow. -/
inductive Problem where
  /-- A node has no id. -/
  | idMissing
  /-- Several nodes have one id. -/
  | idRepeated (id : String)
  /-- An end of an edge names no node. -/
  | endMissing (side : EdgeEnd) (edge node : String)
  /-- No node ends the call. -/
  | noEndCall
  /-- The workflow starts at no node. -/
  | initialNodeMissing (id : String)
  /-- A standard node says nothing. -/
  | contentMissing (id : String)
  /-- A standard node has two things to say. -/
  | contentDoubled (id : String)
  /-- A node that should ask for a variable asks for none. -/
  | variablesMissing (id : String)
  /-- A node asks for variables in both of two ways. -/
  | variablesDoubled (id : String)
  /-- A node hands the call to nobody. -/
  | agentMissing (id : String)
  deriving DecidableEq, Repr

namespace Problem

/-- The code of a problem. -/
def code : Problem → String
  | idMissing => "SCHEMA_INVALID"
  | idRepeated _ => "DUPLICATE_NODE_ID"
  | endMissing _ _ _ => "EDGE_NODE_MISSING"
  | noEndCall => "MISSING_END_CALL_NODE"
  | initialNodeMissing _ => "INITIAL_NODE_MISSING"
  | contentMissing _ => "STANDARD_CONTENT_INVALID"
  | contentDoubled _ => "STANDARD_CONTENT_INVALID"
  | variablesMissing _ => "RETRIEVE_VARIABLE_INVALID"
  | variablesDoubled _ => "RETRIEVE_VARIABLE_INVALID"
  | agentMissing _ => "AGENT_TRANSFER_INVALID"

/-- A message with an id in double quotes in its middle. -/
def about (before id behind : String) : String := before ++ "\"" ++ id ++ "\"" ++ behind

/-- The message of a problem. -/
def message : Problem → String
  | idMissing => "Node id is required"
  | idRepeated id => about "Duplicate node id " id ""
  | endMissing side _ node => about ("Edge " ++ side.name ++ " ") node " not found"
  | noEndCall => "Workflow has no terminal state: at least one end_call node is required"
  | initialNodeMissing id => about "Initial node " id " does not exist in the workflow"
  | contentMissing id => about "Node " id " must have either system_prompt or static_text"
  | contentDoubled id => about "Node " id " cannot have both system_prompt and static_text"
  | variablesMissing id =>
    about "Node " id " must have either variables array or variable_name + extraction_prompt"
  | variablesDoubled id =>
    about "Node " id " cannot use both a variables array and variable_name + extraction_prompt"
  | agentMissing id => about "Agent transfer node " id " must have a target agent selected"

/-- The node a problem is about, if it is about one. -/
def nodeId? : Problem → Option String
  | idRepeated id => some id
  | contentMissing id => some id
  | contentDoubled id => some id
  | variablesMissing id => some id
  | variablesDoubled id => some id
  | agentMissing id => some id
  | _ => none

/-- The edge a problem is about, if it is about one. -/
def edgeId? : Problem → Option String
  | endMissing _ edge _ => some edge
  | _ => none

/-- Where in the workflow a problem lies, if that can be said. -/
def path? : Problem → Option String
  | idMissing => some "nodes.id"
  | endMissing side _ _ => some ("edges." ++ side.name)
  | initialNodeMissing _ => some "initial_node"
  | _ => none

/-- A problem as a value. Every problem is an error. -/
def toValue (p : Problem) : Value :=
  let text (s : Option String) : Value := (s.map Value.str).getD .null
  .obj [("code", .str p.code), ("severity", .str "error"), ("message", .str p.message),
    ("node_id", text p.nodeId?), ("edge_id", text p.edgeId?), ("path", text p.path?)]

end Problem

/-- The report on a workflow with some problems. It is valid if there are
none. -/
def reportOf (problems : List Problem) : Value :=
  .obj [("valid", .bool problems.isEmpty),
    ("errors", .list (problems.map (fun p => .str p.message))),
    ("diagnostics", .list (problems.map Problem.toValue))]

end CallFlow
