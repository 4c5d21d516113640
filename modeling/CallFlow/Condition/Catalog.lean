import CallFlow.Node.Kind

/-!
# The catalog of conditions

A call leaves a node when a *condition* holds. Thirteen kinds of conditions
are known. Some need a parameter – a number of seconds, a keyword, a list
of variables – and each can be offered at certain kinds of nodes only. The
catalog is what an editor shows to choose from.
-/

namespace CallFlow

/-- The kinds of conditions. -/
inductive ConditionKind where
  /-- At once. -/
  | always
  /-- When the caller has spoken. -/
  | userResponded
  /-- When some seconds have passed. -/
  | timeout
  /-- When the caller has spoken a number of times. -/
  | maxTurns
  /-- When what the caller said holds a keyword. -/
  | contains
  /-- When all of some variables are known. -/
  | variablesExtracted
  /-- When some variable could not be found out. -/
  | extractionFailed
  /-- When a variable has a certain value. -/
  | variableEquals
  /-- When the caller wants a certain thing. -/
  | intent
  /-- When the service answered well. -/
  | apiSuccess
  /-- When the service failed. -/
  | apiFailed
  /-- When the service answered with a certain status. -/
  | apiStatus
  /-- When what the service answered holds a text. -/
  | apiResponseContains
  deriving DecidableEq, Repr, Inhabited

/-- What a condition needs to be told, and how an editor asks for it. -/
structure ParameterSpec where
  /-- The kind of input field. -/
  field : String
  /-- The label of the field. -/
  label : String
  /-- An example shown while the field is empty. -/
  placeholder : String
  /-- The unit written behind the parameter. -/
  suffix : String := ""
  deriving DecidableEq, Repr

/-- The intent of a caller whose wish fits no other. -/
def fallbackIntent : String := "no_match"

namespace ConditionKind

/-- The kinds, in the order an editor offers them. -/
def all : List ConditionKind :=
  [always, userResponded, timeout, maxTurns, contains, variablesExtracted, extractionFailed,
    variableEquals, intent, apiSuccess, apiFailed, apiStatus, apiResponseContains]

/-- The name a condition is written with. -/
def name : ConditionKind → String
  | always => "always"
  | userResponded => "user_responded"
  | timeout => "timeout"
  | maxTurns => "max_turns"
  | contains => "contains"
  | variablesExtracted => "variables_extracted"
  | extractionFailed => "extraction_failed"
  | variableEquals => "variable_equals"
  | intent => "intent"
  | apiSuccess => "api_success"
  | apiFailed => "api_failed"
  | apiStatus => "api_status"
  | apiResponseContains => "api_response_contains"

/-- The kind of a name, if there is one. -/
def ofName? (name : String) : Option ConditionKind := all.find? (fun k => k.name = name)

/-- The name an editor shows. -/
def displayName : ConditionKind → String
  | always => "Always"
  | userResponded => "User Responded"
  | timeout => "Timeout"
  | maxTurns => "Max Turns"
  | contains => "Contains Keyword"
  | variablesExtracted => "Variables Extracted"
  | extractionFailed => "Extraction Failed"
  | variableEquals => "Variable Equals"
  | intent => "Intent Match"
  | apiSuccess => "API Success"
  | apiFailed => "API Failed"
  | apiStatus => "API Status Code"
  | apiResponseContains => "Response Contains"

/-- A line of explanation. -/
def explanation : ConditionKind → String
  | always => "Immediate transition"
  | userResponded => "After user speaks"
  | timeout => "After specified time"
  | maxTurns => "After N exchanges"
  | contains => "If response contains keyword"
  | variablesExtracted => "All variables successfully extracted"
  | extractionFailed => "Any variable missing or null"
  | variableEquals => "Deterministic variable comparison"
  | intent => "LLM intent classification"
  | apiSuccess => "API returned 2xx status"
  | apiFailed => "API error, timeout, or non-2xx"
  | apiStatus => "Match specific HTTP status"
  | apiResponseContains => "Response body contains text"

/-- The parameter of a condition, where it takes one. -/
def parameter? : ConditionKind → Option ParameterSpec
  | always => none
  | userResponded => none
  | timeout => some { field := "number", label := "Seconds", placeholder := "10", suffix := "s" }
  | maxTurns => some { field := "number", label := "Turn Count", placeholder := "5" }
  | contains => some { field := "string", label := "Keyword", placeholder := "goodbye" }
  | variablesExtracted =>
    some { field := "variables", label := "Variable Names", placeholder := "name,email,phone" }
  | extractionFailed =>
    some { field := "variables", label := "Variable Names", placeholder := "name,email,phone" }
  | variableEquals =>
    some { field := "variable_value_pair", label := "Variable & Expected Value",
           placeholder := "var_name=value" }
  | intent =>
    some { field := "intent", label := "Intent ID",
           placeholder := "wants_help or " ++ fallbackIntent }
  | apiSuccess => none
  | apiFailed => none
  | apiStatus => some { field := "number", label := "Status Code", placeholder := "404" }
  | apiResponseContains =>
    some { field := "string", label := "Search Text", placeholder := "error" }

/-- The kinds of nodes a condition can be offered at. -/
def offeredAt : ConditionKind → List NodeKind
  | always => [.standard, .retrieveVariable]
  | userResponded => [.standard]
  | timeout => [.standard, .retrieveVariable]
  | maxTurns => [.standard]
  | contains => [.standard]
  | variablesExtracted => [.retrieveVariable]
  | extractionFailed => [.retrieveVariable]
  | variableEquals => [.standard, .retrieveVariable]
  | intent => [.standard]
  | apiSuccess => [.apiCall]
  | apiFailed => [.apiCall]
  | apiStatus => [.apiCall]
  | apiResponseContains => [.apiCall]

@[simp] theorem ofName?_name (k : ConditionKind) : ofName? k.name = some k := by
  cases k <;> decide

/-- The entry of a kind in the catalog. -/
def entry (k : ConditionKind) : Value :=
  let text (f : ParameterSpec → String) : Value := .str ((k.parameter?.map f).getD "")
  .obj [("kind", .str k.name), ("display_name", .str k.displayName),
    ("description", .str k.explanation), ("has_parameter", .bool k.parameter?.isSome),
    ("parameter_type", (k.parameter?.map (fun p => Value.str p.field)).getD .null),
    ("parameter_label", text ParameterSpec.label),
    ("parameter_placeholder", text ParameterSpec.placeholder),
    ("parameter_suffix", text ParameterSpec.suffix),
    ("applicable_to", .list (k.offeredAt.map (fun n => .str n.name)))]

end ConditionKind

/-- The conditions to choose from at a node of a kind; a blank kind stands
for any. -/
def conditionCatalog (kind : Value) : List ConditionKind :=
  if kind.truthy then
    ConditionKind.all.filter (fun k => k.offeredAt.any (fun n => Value.str n.name = kind))
  else ConditionKind.all

end CallFlow
