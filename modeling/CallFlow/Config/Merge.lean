import CallFlow.Config.Section
import CallFlow.Settings.Basic

/-!
# The settings of a workflow

A workflow section holds settings beside its nodes. When it is saved, each
setting is taken from the edits just made, else from the section saved
before; an edit to null removes the setting. Settings nobody here knows are
carried along like any other.

Two keys are the exception: the nodes are always those being saved, and the
initial node, should neither an edit nor the old section name one, is the
first node, or the default of the installation.
-/

namespace CallFlow

/-- The settings that are written first, in their order. -/
def settingKeys : List Key :=
  ["global_prompt", "history_window", "max_transitions", "interruption_settings", "recording",
    "llm", "tts", "global_intents", "global_intent_config", "post_call_analysis"]

/-- The keys that make up the structure of a section. -/
def structuralKeys : List Key := ["initial_node", "nodes"]

/-- The keys of a section in the order they are written: the settings that
are written first, then all others as they stand. -/
def orderedKeys (previous : Fields) : List Key :=
  let known := settingKeys.filter (fun k => Fields.has previous k)
  let others := (Fields.keys previous).filter (fun k => k ∉ settingKeys)
  (known ++ others).filter (fun k => k ∉ structuralKeys)

/-- The id of the first of some nodes; without nodes it is empty. -/
def firstId (nodes : Value) : Outcome String :=
  if nodes.truthy then
    match nodes with
    | .list (node :: _) => do return (Fields.get (← node.object) "id").idText
    | .str _ => .error .notAnObject
    | .obj _ => .error .missingField
    | _ => .error .wrongKind
  else .ok ""

/-- The node a workflow starts at. -/
def initialNode (settings : Settings) (changes previous : Fields) (nodes : Value) : Outcome Value :=
  let named := (Fields.get changes "initial_node").orElse (Fields.get previous "initial_node")
  if named.truthy then .ok named
  else do return (Value.str (← firstId nodes)).orElse settings.defaultInitialNode

/-- Lays an edit over the settings: null removes a setting. -/
def applyEdit (fields : Fields) (edit : Key × Value) : Fields :=
  if edit.2 = .null then Fields.erase fields edit.1 else Fields.put fields edit.1 edit.2

/-- The section without its nodes: the initial node, and every setting. -/
def mergeSettings (settings : Settings) (previous : Fields) (nodes edits : Value) :
    Outcome Fields := do
  let changes ← (edits.orElse (.obj [])).asFields
  let start ← initialNode settings changes previous nodes
  let kept := (orderedKeys previous).foldl
    (fun out k => Fields.put out k (Fields.get previous k)) [("initial_node", start)]
  return (changes.filter (fun f => f.1 ∉ structuralKeys)).foldl applyEdit kept

end CallFlow
