import CallFlow.Config.Loading

/-!
# Saving a node

A saved node holds the fields that belong to its kind and no others, so
what an editor keeps on a node for its own use never reaches a
configuration. Which fields those are, and when each is written, is an
`EmissionPlan`: texts that prompt somebody are written when they say
something, structured fields whenever they are not null, and a default
value whenever it is there. A kind that is not known has no plan, and its
nodes keep every field they have.
-/

namespace CallFlow

/-- When a field is written. -/
inductive Presence where
  /-- When it says something. -/
  | stated
  /-- When it is not null. -/
  | notNull
  /-- Whenever it is there. -/
  | present
  deriving DecidableEq, Repr

/-- Whether a value under the rule is written. -/
def Presence.keeps : Presence → Value → Bool
  | stated, value => value.truthy
  | notNull, value => value != .null
  | present, _ => true

/-- What is written of a node, in order. -/
structure EmissionPlan where
  /-- The fields in front of the transitions. -/
  leading : List (String × Presence)
  /-- Whether transitions are written. -/
  transitions : Bool
  /-- The fields behind the transitions. -/
  trailing : List (String × Presence)
  /-- Whether of the actions only those on entry are written. -/
  entryActions : Bool

/-- The plan for a kind of node. -/
def NodeKind.plan : NodeKind → EmissionPlan
  | .standard =>
    { leading := [("system_prompt", .stated), ("static_text", .stated),
        ("interruptions_enabled", .notNull)]
      transitions := true
      trailing := [("actions", .notNull), ("rag", .notNull), ("llm_override", .notNull),
        ("intents", .stated), ("intent_config", .notNull)]
      entryActions := false }
  | .retrieveVariable =>
    { leading := [("variables", .notNull), ("variable_name", .stated),
        ("extraction_prompt", .stated), ("default_value", .present),
        ("interruptions_enabled", .notNull)]
      transitions := true
      trailing := [("actions", .notNull)]
      entryActions := false }
  | .endCall => { leading := [], transitions := false, trailing := [], entryActions := false }
  | .agentTransfer =>
    { leading := [("target_agent_id", .notNull), ("transfer_context", .stated),
        ("transfer_message", .stated)]
      transitions := false
      trailing := []
      entryActions := true }
  | .apiCall =>
    { leading := [("static_text", .stated), ("api_call", .notNull),
        ("interruptions_enabled", .notNull)]
      transitions := true
      trailing := []
      entryActions := true }

/-- Writes the fields of some rules that are there and are to be kept. -/
def copyFields (rules : List (String × Presence)) (data out : Fields) : Fields :=
  rules.foldl (fun out rule =>
    match Fields.get? data rule.1 with
    | some value => if rule.2.keeps value then Fields.put out rule.1 value else out
    | none => out) out

/-- Writes the transitions, where there are any. -/
def putTransitions (transitions : Value) (out : Fields) : Fields :=
  if transitions.truthy then Fields.put out "transitions" transitions else out

/-- Writes the actions on entry, where there are any, as a list. -/
def putEntryActions (data out : Fields) : Outcome Fields := do
  let onEntry := Fields.get (Fields.get data "actions").fieldsOrNone "on_entry"
  if onEntry.truthy then
    return Fields.put out "actions" (.obj [("on_entry", .list (← onEntry.elements))])
  else return out

/-- What every saved node starts with. -/
def nodeHead (data : Fields) (id : Value) : Fields :=
  let name := Fields.get data "name"
  ("id", id) :: ("type", kindOf data) :: (if name = .null then [] else [("name", name)])

/-- Writes the rest of a node to a plan. -/
def EmissionPlan.write (plan : EmissionPlan) (data : Fields) (transitions : Value) (head : Fields) :
    Outcome Fields := do
  let out := copyFields plan.leading data head
  let out := if plan.transitions then putTransitions transitions out else out
  let out := copyFields plan.trailing data out
  if plan.entryActions then putEntryActions data out else return out

/-- The keys that saving a node writes itself. -/
def ownKeys : List Key := ["id", "type", "name", "transitions", "_metadata"]

/-- Writes the rest of a node whose kind is not known: all its fields. -/
def writeVerbatim (data : Fields) (transitions : Value) (head : Fields) : Fields :=
  putTransitions transitions
    ((data.filter (fun f => f.1 ∉ ownKeys)).foldl (fun out f => Fields.put out f.1 f.2) head)

/-- The saved form of a node, without what an editor keeps about it. -/
def emitNode (data : Fields) (id transitions : Value) : Outcome Fields :=
  match NodeKind.ofName? (kindOf data).text with
  | some kind => kind.plan.write data transitions (nodeHead data id)
  | none => .ok (writeVerbatim data transitions (nodeHead data id))

end CallFlow
