import CallFlow.Http.Framework
import CallFlow.Layout.Options
import CallFlow.Node.Kind

/-!
# The models of the service

What a request carries, and what is answered, is declared as a *model*: the
fields there are, how each of them is read, and what stands for it when it is
not there. A node, an edge and the data of an edge keep what else they hold;
every other model drops what it does not declare.
-/

namespace CallFlow.Schema

open Check (Field)

variable (F : Framework)

/-! ## Graphs -/

/-- A place on the canvas. -/
def position : Check :=
  F.model [{ key := "x", check := F.number, default := some (.int 0) },
    { key := "y", check := F.number, default := some (.int 0) }] false

/-- The data of an edge. -/
def edgeData : Check :=
  F.model [{ key := "condition", check := F.nullable F.text, default := some .null },
    { key := "priority", check := F.nullable F.number, default := some .null }] true

/-- The fields of a node. -/
def nodeFields : List Field :=
  [{ key := "id", check := F.text },
    { key := "type", check := F.text, default := some (.str NodeKind.standard.box) },
    { key := "position", check := position F,
      default := some (.obj [("x", .int 0), ("y", .int 0)]) },
    { key := "data", check := F.object, default := some (.obj []) }]

/-- A node of a graph. -/
def node : Check := F.model (nodeFields F) true

/-- An edge of a graph. -/
def edge : Check :=
  F.model [{ key := "id", check := F.text, default := some (.str "") },
    { key := "source", check := F.text },
    { key := "target", check := F.text },
    { key := "label", check := F.nullable F.text, default := some .null },
    { key := "data", check := edgeData F,
      default := some (.obj [("condition", .null), ("priority", .null)]) }] true

/-- A graph. -/
def graph : Check :=
  F.model [{ key := "nodes", check := F.listOf (node F), default := some (.list []) },
    { key := "edges", check := F.listOf (edge F), default := some (.list []) }] false

/-! ## Requests -/

/-- The field that holds a graph. -/
def graphField : Field := { key := "graph", check := graph F }

/-- A field that holds a text. -/
def textField (key : String) : Field := { key := key, check := F.text }

/-- A field that holds a text, empty by default. -/
def optionalText (key : String) : Field :=
  { key := key, check := F.text, default := some (.str "") }

/-- A field that holds a text or null. -/
def nullableText (key : String) : Field :=
  { key := key, check := F.nullable F.text, default := some .null }

/-- A field that holds an object or null. -/
def optionalObject (key : String) : Field :=
  { key := key, check := F.nullable F.object, default := some .null }

/-- A field that holds a flag. -/
def flagField (key : String) : Field := { key := key, check := F.flag }

/-- A field that holds a flag, not set by default. -/
def optionalFlag (key : String) : Field :=
  { key := key, check := F.flag, default := some (.bool false) }

/-- A field that holds a list, empty by default. -/
def listField (key : String) (check : Check) : Field :=
  { key := key, check := F.listOf check, default := some (.list []) }

/-- A request to read a condition. -/
def parseRequest : Check := F.model [nullableText F "condition"] false

/-- A request to write a condition. -/
def buildRequest : Check := F.model [textField F "kind", optionalText F "parameter"] false

/-- A request to open a configuration. -/
def openRequest : Check :=
  F.model [{ key := "config", check := F.object }, optionalFlag F "apply_layout",
    { key := "direction", check := F.nullable (F.oneOf (Direction.all.map Direction.name)),
      default := some .null }] false

/-- A request to save a graph. -/
def saveRequest : Check :=
  F.model [graphField F, optionalObject F "previous_config", optionalObject F "settings",
    optionalFlag F "persist_positions"] false

/-- A request to check a graph. -/
def validateRequest : Check := F.model [graphField F, nullableText F "initial_node"] false

/-- A request to bring a graph into agreement. -/
def reconcileRequest : Check := F.model [graphField F] false

/-- A request to deploy a graph. -/
def deployRequest : Check :=
  F.model [graphField F, optionalObject F "previous_config", optionalObject F "settings"] false

/-- The kind of node a catalog is asked for. -/
def catalogKind : Field :=
  { key := "node_type", check := F.nullable (F.oneOf (NodeKind.all.map NodeKind.name)),
    default := some .null }

/-! ## Answers -/

/-- That the service runs. -/
def healthAnswer : Check :=
  F.model [textField F "status", textField F "grid_cell", textField F "layout_direction"] false

/-- A kind of condition to choose from. -/
def catalogEntry : Check :=
  F.model [textField F "kind", textField F "display_name", textField F "description",
    flagField F "has_parameter", nullableText F "parameter_type", optionalText F "parameter_label",
    optionalText F "parameter_placeholder", optionalText F "parameter_suffix",
    listField F "applicable_to" F.text] false

/-- The conditions to choose from. -/
def catalogAnswer : Check := F.model [listField F "conditions" (catalogEntry F)] false

/-- How a condition is read. -/
def parseAnswer : Check :=
  F.model [textField F "kind", optionalText F "parameter", flagField F "recognized",
    textField F "description"] false

/-- A condition that was written. -/
def buildAnswer : Check := F.model [textField F "condition"] false

/-- What a graph is saved as, and whether that is another document. -/
def saveAnswer : Check :=
  F.model [{ key := "config", check := F.object }, flagField F "dirty", textField F "hash"] false

/-- Something that is wrong with a workflow. -/
def problem : Check :=
  F.model [textField F "code",
    { key := "severity", check := F.oneOf ["error", "warning", "info"],
      default := some (.str "error") },
    textField F "message", nullableText F "node_id", nullableText F "edge_id",
    nullableText F "path"] false

/-- What is wrong with a workflow. -/
def reportAnswer : Check :=
  F.model [flagField F "valid", listField F "errors" F.text,
    listField F "diagnostics" (problem F)] false

/-- A graph brought into agreement, and the nodes that were changed. -/
def reconcileAnswer : Check := F.model [graphField F, listField F "updated_node_ids" F.text] false

end CallFlow.Schema
