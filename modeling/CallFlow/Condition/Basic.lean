import CallFlow.Condition.Catalog

/-!
# Conditions

A condition is written as the name of its kind, with a colon and the
parameter behind it where it takes one and has one: `always`,
`timeout:10s`, `variable_equals:plan=gold`. Reading is lenient – whatever is
not recognised is the condition that always holds – and writing is
canonical: a kind without a parameter never carries one, and an empty
parameter is not written.
-/

namespace CallFlow

/-- A condition: its kind, and its parameter, which may be empty. -/
structure Condition where
  /-- The kind. -/
  kind : ConditionKind
  /-- The parameter, without the unit. -/
  parameter : String
  deriving DecidableEq, Repr

namespace Condition

/-- The condition that always holds. -/
def unconditional : Condition := ⟨.always, ""⟩

/-- The part of a text in front of the first colon. -/
def namePart (text : String) : String := String.ofList (text.toList.takeWhile (· ≠ ':'))

/-- The part of a text behind the first colon. -/
def parameterPart (text : String) : String :=
  String.ofList ((text.toList.dropWhile (· ≠ ':')).drop 1)

/-- A text without a unit at its end. -/
def withoutUnit (unit text : String) : String :=
  if unit.toList.isSuffixOf text.toList then
    String.ofList (text.toList.take (text.toList.length - unit.toList.length))
  else text

/-- Reads a condition. A text that names no kind is unconditional, and so
is the empty text. -/
def decode (text : String) : Condition :=
  match ConditionKind.ofName? (namePart text) with
  | none => unconditional
  | some kind =>
    match kind.parameter? with
    | none => ⟨kind, ""⟩
    | some spec => ⟨kind, withoutUnit spec.suffix (parameterPart text)⟩

/-- Whether a text names a kind of condition. -/
def isRecognized (text : String) : Bool := (ConditionKind.ofName? (namePart text)).isSome

/-- Writes a condition. -/
def encode (c : Condition) : String :=
  match c.kind.parameter? with
  | none => c.kind.name
  | some spec =>
    if c.parameter = "" then c.kind.name
    else c.kind.name ++ ":" ++ c.parameter ++ spec.suffix

/-- Writes a condition whose kind is given by name; an unknown name is
unconditional. -/
def encodeNamed (name parameter : String) : String :=
  match ConditionKind.ofName? name with
  | none => unconditional.encode
  | some kind => encode ⟨kind, parameter⟩

/-- How an editor describes a condition. -/
def describe (c : Condition) : String :=
  match c.kind.parameter? with
  | none => c.kind.displayName
  | some spec =>
    if c.parameter = "" then c.kind.displayName
    else c.kind.displayName ++ " (" ++ c.parameter ++ spec.suffix ++ ")"

end Condition

/-- The condition of a transition that states none. -/
def defaultCondition : String := Condition.unconditional.encode

end CallFlow
