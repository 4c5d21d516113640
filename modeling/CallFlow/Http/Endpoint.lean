import CallFlow.Condition.Basic
import CallFlow.Http.Schema
import CallFlow.Settings.Basic
import CallFlow.Workflow

/-!
# The endpoints

The editor works over the network. Each `Endpoint` has a path and a method
of its own, and each but the first two takes a body. What an endpoint does is
done with what was read of the request, and the value it answers with is read as
a model in turn. A fault that nobody foresaw – in the work itself, or in an
answer that is not what it should be – is left to the packages, and so is what
they find wrong with a request.

Together the endpoints are the `Service.routes`, which a framework serves.
-/

namespace CallFlow

/-- Where requests can be sent to. -/
inductive Endpoint where
  /-- Tells that the service runs. -/
  | health
  /-- Lists conditions to choose from. -/
  | conditions
  /-- Reads a condition. -/
  | parseCondition
  /-- Writes a condition. -/
  | buildCondition
  /-- Opens a configuration. -/
  | graph
  /-- Saves a graph, and tells whether it is dirty. -/
  | config
  /-- Checks a graph. -/
  | validate
  /-- Brings a graph into agreement. -/
  | reconcile
  /-- Deploys a graph. -/
  | deploy
  deriving DecidableEq, Repr

namespace Endpoint

/-- All endpoints. -/
def all : List Endpoint :=
  [health, conditions, parseCondition, buildCondition, graph, config, validate, reconcile, deploy]

/-- The path of an endpoint. -/
def path : Endpoint → String
  | health => "/health"
  | conditions => "/workflow/conditions"
  | parseCondition => "/workflow/conditions/parse"
  | buildCondition => "/workflow/conditions/build"
  | graph => "/workflow/graph"
  | config => "/workflow/config"
  | validate => "/workflow/validate"
  | reconcile => "/workflow/reconcile"
  | deploy => "/workflow/deploy"

/-- The method of an endpoint. -/
def method : Endpoint → String
  | health => "GET"
  | conditions => "GET"
  | _ => "POST"

/-- The model of the body an endpoint takes, if it takes one. -/
def body? (F : Framework) : Endpoint → Option Check
  | health => none
  | conditions => none
  | parseCondition => some (Schema.parseRequest F)
  | buildCondition => some (Schema.buildRequest F)
  | graph => some (Schema.openRequest F)
  | config => some (Schema.saveRequest F)
  | validate => some (Schema.validateRequest F)
  | reconcile => some (Schema.reconcileRequest F)
  | deploy => some (Schema.deployRequest F)

/-- The parameters of an endpoint. -/
def parameters (F : Framework) : Endpoint → List Check.Field
  | conditions => [Schema.catalogKind F]
  | _ => []

end Endpoint

namespace Service

/-- How a request to save is read. -/
def saveRequestOf (body : Fields) : SaveRequest :=
  { previous := Fields.get body "previous_config"
    edits := Fields.get body "settings"
    keepPositions := (Fields.get body "persist_positions").truthy }

/-- Tells that the service runs, and how it lays out graphs. -/
def healthReport (settings : Settings) : Value :=
  let side (value : Value) : List Char :=
    match value with
    | .float x => SixDigits.text x
    | value => value.text.toList
  .obj [("status", .str "ok"),
    ("grid_cell", .str (String.ofList
      (side settings.gridCellWidth ++ 'x' :: side settings.gridCellHeight))),
    ("layout_direction", settings.layoutDirection)]

/-- Lists the conditions to choose from. -/
def catalogReport (kind : Value) : Value :=
  .obj [("conditions", .list ((conditionCatalog kind).map ConditionKind.entry))]

/-- Tells how a condition is read. -/
def conditionReport (text : String) : Value :=
  let c := Condition.decode text
  .obj [("kind", .str c.kind.name), ("parameter", .str c.parameter),
    ("recognized", .bool (Condition.isRecognized text)), ("description", .str c.describe)]

/-- What is answered to a graph that was brought into agreement: the graph, and
the ids of the nodes that were changed. -/
def reconciled (graph : Value) (updated : List String) : Value :=
  .obj [("graph", graph), ("updated_node_ids", .list (updated.map Value.str))]

/-- A value that is answered is read as a model first, and is a fault if that
does not read it. -/
def modelled (check : Check) (value : Value) : Outcome Value :=
  match check [] value with
  | .ok value => .ok value
  | .error _ => .error .badContent

/-- Does the work of an endpoint with what was read of the request. -/
def work (F : Framework) (settings : Settings) (endpoint : Endpoint) (body : Fields) :
    Outcome Reply :=
  let field (key : String) : Value := Fields.get body key
  let answer (check : Check) (value : Value) : Outcome Reply := .value <$> modelled check value
  match endpoint with
  | .health => answer (Schema.healthAnswer F) (healthReport settings)
  | .conditions => answer (Schema.catalogAnswer F) (catalogReport (field "node_type"))
  | .parseCondition => answer (Schema.parseAnswer F) (conditionReport (field "condition").idText)
  | .buildCondition =>
    answer (Schema.buildAnswer F) (.obj [("condition",
      .str (Condition.encodeNamed (field "kind").text (field "parameter").text))])
  | .graph => do
    answer (Schema.graph F) (← openWorkflow settings (field "config") (field "apply_layout").truthy
      (field "direction") none F.search)
  | .config => do
    answer (Schema.saveAnswer F) (← dirtyState settings (saveRequestOf body) (field "graph")).toValue
  | .validate => do
    answer (Schema.reportAnswer F) (reportOf (← problemsOf (field "graph") (field "initial_node")))
  | .reconcile => do
    let synced ← sync (field "graph") none
    let graph ← modelled (Schema.graph F) (synced.revision.apply (field "graph"))
    answer (Schema.reconcileAnswer F) (reconciled graph synced.updated)
  | .deploy => do
    match ← CallFlow.deploy settings (saveRequestOf body) (field "graph") with
    | .accepted config => return .value (.obj [("config", config)])
    | .rejected problems => return .refusal 422 (reportOf problems)

/-- The route of an endpoint. -/
def route (F : Framework) (settings : Settings) (endpoint : Endpoint) : Route :=
  { method := endpoint.method
    path := endpoint.path
    body? := endpoint.body? F
    parameters := endpoint.parameters F
    run := work F settings endpoint }

/-- The routes of the service. -/
def routes (F : Framework) (settings : Settings) : List Route :=
  Endpoint.all.map (route F settings)

/-- Answers a request. -/
def answer (F : Framework) (settings : Settings) (request : Request) : Response :=
  F.serve (routes F settings) request

end Service

end CallFlow
