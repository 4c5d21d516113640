import CallFlow.Graph.Basic

/-!
# Summaries of transitions

A box on the canvas shows the first transitions of its node, in short: the
condition and the name of the target, each cut to a width.
-/

namespace CallFlow.Summary

/-- How many transitions a box shows. -/
def shownRows : Nat := 5

/-- How many characters of a condition are shown. -/
def conditionWidth : Nat := 28

/-- How many characters of a name are shown. -/
def nameWidth : Nat := 16

/-- Cuts a text to a width, with dots for what is left out. -/
def shorten (s : String) (width : Nat) : String :=
  if s.length ≤ width then s else String.ofList (s.toList.take width) ++ "..."

/-- The name of a node: the one its data state, or its id. -/
def nodeName (node : Fields) : String :=
  (Fields.get (Fields.get node "data").fieldsOrNone "name").textOr (idOf node)

/-- The names of all nodes by id. Of nodes with one id the last gives the
name. -/
def nodeNames (graph : Value) : Outcome Fields := do
  let nodes ← objects (← nodesOf graph)
  return nodes.foldl (fun names node => Fields.put names (idOf node) (.str (nodeName node))) []

/-- A transition in short. -/
def row (names item : Value) : Outcome Value := do
  let fields ← item.object
  let condition := (Fields.get fields "condition").idText
  let target := (Fields.get fields "target").idText
  let name := (Fields.get (← names.object) target).textOr target
  return .obj [("condition", .str (shorten condition conditionWidth)), ("target", .str target),
    ("target_name", .str (shorten name nameWidth))]

/-- The first transitions of a node in short, or all of them, and how many
are not shown. -/
def summarize (transitions names : Value) (expanded : Bool) : Outcome Value := do
  let items ← transitions.elementsOrNone
  let shown := if expanded then items else items.take shownRows
  let rows ← shown.mapM (row names)
  return .obj [("rows", .list rows), ("hidden_count", .int (items.length - shown.length : Nat))]

end CallFlow.Summary
