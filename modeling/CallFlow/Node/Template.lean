import CallFlow.Graph.Edit
import CallFlow.Number.Decimal
import CallFlow.Value.Arithmetic

/-!
# New nodes

A node that is added to a graph starts with data that suit its kind; a kind
that is not known starts as a standard node without content. Unless an id
is given the node gets a fresh one, made of its kind, the time in
milliseconds, and seven characters chosen at random. Time and choices are
handed in as a `Draw`, so that adding a node is a function of what it is
given.
-/

namespace CallFlow

/-- The data a node of a kind starts with. -/
def NodeKind.template (kind : NodeKind) (id : Value) : Fields :=
  let node (name : String) (more : Fields) : Fields :=
    ("id", id) :: ("type", .str kind.name) :: ("name", .str name) :: more
  match kind with
  | .standard =>
    node "New Standard Node"
      [("system_prompt", .str "You are a helpful AI assistant."),
        ("interruptions_enabled", .bool true)]
  | .retrieveVariable => node "New Variable Node" [("variables", .list [])]
  | .endCall => node "End Call" []
  | .agentTransfer =>
    node "Transfer to Agent"
      [("target_agent_id", .str ""), ("transfer_context", .bool false),
        ("transfer_message", .str "")]
  | .apiCall =>
    node "New API Call"
      [("static_text", .str ""),
        ("api_call", .obj [("method", .str "GET"), ("url", .str ""), ("headers", .obj []),
          ("timeout_seconds", .int 30),
          ("retry", .obj [("max_retries", .int 2), ("initial_delay_ms", .int 500),
            ("max_delay_ms", .int 5000), ("backoff_multiplier", .float 2.0)]),
          ("response_extraction", .list [])])]

/-- The kind a value names, if it names a known one. -/
def namedKind? : Value → Option NodeKind
  | .str name => NodeKind.ofName? name
  | _ => none

/-- The data a new node starts with. -/
def templateFor (id kind : Value) : Fields :=
  match namedKind? kind with
  | some k => k.template id
  | none => [("id", id), ("type", defaultKind), ("name", .str "New Node")]

/-- What a fresh id is drawn from. -/
structure Draw where
  /-- The time, in seconds. -/
  time : Value := .float 0.0
  /-- The places of the characters chosen, counted from the front or, below
  zero, from the end; a missing choice is the first character. -/
  choices : List Value := []

namespace Draw

/-- The characters a fresh id is made of. -/
def alphabet : List Char := "abcdefghijklmnopqrstuvwxyz0123456789".toList

/-- How many characters are chosen. -/
def suffixLength : Nat := 7

/-- The character at a place. -/
def character (place : Value) : Outcome Char := do
  match ← place.number with
  | .int n =>
    let index := if n < 0 then n + alphabet.length else n
    if index < 0 then .error .outOfRange
    else
      match alphabet[index.toNat]? with
      | some c => return c
      | none => .error .outOfRange
  | .float _ => .error .wrongKind

/-- The characters that were chosen. -/
def suffix (d : Draw) : Outcome (List Char) :=
  (List.range suffixLength).mapM fun k => character ((d.choices[k]?).getD (.int 0))

/-- The whole number a value stands for: a number without its places, or
the number a text is. -/
def wholeNumber : Value → Outcome Int
  | .str s =>
    match readWhole? s with
    | some n => .ok n
    | none => .error .badContent
  | value => do (← value.number).truncated

/-- The time in milliseconds, written out. -/
def stamp (d : Draw) : Outcome (List Char) := do
  let digits := intText (← wholeNumber (← Value.times (.int 1000) d.time))
  if longestWhole < digits.countP Char.isDigit then .error .badContent else return digits

/-- The fresh id of a node. -/
def freshId (d : Draw) (kind : Value) : Outcome String := do
  let stamp ← d.stamp
  let suffix ← d.suffix
  return kind.text ++ "_" ++ String.ofList stamp ++ "_" ++ String.ofList suffix

end Draw

/-- Adds a node to a graph. Says which id it got. -/
def addNode (document kind position id : Value) (draw : Draw) : Outcome (Revision × Value) := do
  let id ← if id.truthy then pure id else Value.str <$> draw.freshId kind
  let data := templateFor id kind
  let place ← position.object
  let coordinate (key : String) : Value := (Fields.get? place key).getD (.int 0)
  let node : Fields := [("id", id), ("type", .str (boxOf (Fields.get data "type"))),
    ("position", .obj [("x", coordinate "x"), ("y", coordinate "y")]), ("data", .obj data)]
  let nodes ← nodesOf document
  return (.rebuilt ⟨nodes ++ [.obj node], ← edgesOf document⟩, id)

end CallFlow
