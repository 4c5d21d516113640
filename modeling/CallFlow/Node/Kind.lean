import CallFlow.Value.Text

/-!
# Kinds of nodes

A call goes from node to node. Five kinds of nodes are known: most nodes
*standard*, some asking for a variable, some ending the call, some handing
it to another agent, some calling out. A document names the kind of a node
by a text and may name kinds that are not known yet; those are drawn as a
standard node is, and are otherwise left alone.
-/

namespace CallFlow

/-- The kinds of nodes that are known. -/
inductive NodeKind where
  /-- Speaks, then listens. -/
  | standard
  /-- Asks for the value of one or more variables. -/
  | retrieveVariable
  /-- Ends the call. -/
  | endCall
  /-- Hands the call to another agent. -/
  | agentTransfer
  /-- Calls a service. -/
  | apiCall
  deriving DecidableEq, Repr, Inhabited

namespace NodeKind

/-- The known kinds, in their customary order. -/
def all : List NodeKind := [standard, retrieveVariable, endCall, agentTransfer, apiCall]

/-- The name a document uses. -/
def name : NodeKind → String
  | standard => "standard"
  | retrieveVariable => "retrieve_variable"
  | endCall => "end_call"
  | agentTransfer => "agent_transfer"
  | apiCall => "api_call"

/-- The kind of a name, if it is known. -/
def ofName? (name : String) : Option NodeKind := all.find? (fun k => k.name = name)

/-- The name of the box that draws a node of the kind. -/
def box : NodeKind → String
  | standard => "standardNode"
  | retrieveVariable => "retrieveVariableNode"
  | endCall => "endCallNode"
  | agentTransfer => "agentTransferNode"
  | apiCall => "apiCallNode"

@[simp] theorem ofName?_name (k : NodeKind) : ofName? k.name = some k := by cases k <;> decide

theorem name_of_ofName? {s : String} {k : NodeKind} (h : ofName? s = some k) : k.name = s := by
  simpa using List.find?_some h

end NodeKind

/-- The kind a node is of when it names none. -/
def defaultKind : Value := .str NodeKind.standard.name

/-- The box that draws a node whose kind is given by a value; where the
kind is not known it is the standard one. -/
def boxOf (kind : Value) : String := ((NodeKind.ofName? kind.idText).getD .standard).box

end CallFlow
