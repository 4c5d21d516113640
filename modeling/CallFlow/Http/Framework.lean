import CallFlow.Http.Wire
import CallFlow.Layout.Rank

/-!
# The packages below the service

What the service does of its own is declared: models that say what a request
carries and what an answer does, and routes that say what is done on request.
The rest is left to packages that are no part of it. pydantic reads a value as
a model declares it, with defaults filled in, and writes it out again; FastAPI,
on top of Starlette, takes a request to its route and sends back what comes of
it; and networkx finds the distances a layout goes by.

A `Framework` is whatever stands for these packages. The service is defined over
one and knows nothing about it, and what is proved of the service is proved for
every one that does what the packages document (`Framework.Lawful`).

A package reads a value by a `Check`, which looks at a value at some place in the
request, and either hands back the value to go on with or every `Issue` it
found. An object that is checked as a *model* may have fields the model does not
declare; the model says whether those are kept or dropped.
-/

namespace CallFlow

/-! ## Reading values -/

/-- What is wrong with a value in a request. -/
inductive IssueKind where
  /-- A field has to be there. -/
  | missing
  /-- A text was expected. -/
  | textExpected
  /-- An object was expected. -/
  | objectExpected
  /-- A list was expected. -/
  | listExpected
  /-- A value cannot be read as a flag. -/
  | flagUnreadable
  /-- A flag was expected. -/
  | flagExpected
  /-- A value is none of those allowed. -/
  | notAllowed
  /-- An object with the fields of a model was expected. -/
  | modelExpected
  /-- A field stands under a key that is no text. -/
  | keyInvalid
  /-- A text cannot be read as a whole number. -/
  | wholeUnreadable
  /-- A text is a whole number of too many digits. -/
  | wholeTooLong
  /-- A text cannot be read as a number. -/
  | numberUnreadable
  /-- A whole number was expected. -/
  | wholeExpected
  /-- A number was expected. -/
  | numberExpected
  deriving DecidableEq, Repr

/-- The name of a kind of issue. -/
def IssueKind.name : IssueKind → String
  | missing => "missing"
  | textExpected => "string_type"
  | objectExpected => "dict_type"
  | listExpected => "list_type"
  | flagUnreadable => "bool_parsing"
  | flagExpected => "bool_type"
  | notAllowed => "literal_error"
  | modelExpected => "model_attributes_type"
  | keyInvalid => "invalid_key"
  | wholeUnreadable => "int_parsing"
  | wholeTooLong => "int_parsing_size"
  | numberUnreadable => "float_parsing"
  | wholeExpected => "int_type"
  | numberExpected => "float_type"

/-- A step towards a place in a request. -/
inductive Place where
  /-- To a field of an object. -/
  | field (name : String)
  /-- To an item of a list. -/
  | item (index : Nat)
  deriving DecidableEq, Repr

/-- A place's step as a value. -/
def Place.toValue : Place → Value
  | field name => .str name
  | item index => .int index

/-- Something that is wrong with a request. -/
structure Issue where
  /-- What is wrong. -/
  kind : IssueKind
  /-- Where it is wrong. -/
  place : List Place
  deriving DecidableEq, Repr

/-- An issue as a value. -/
def Issue.toValue (i : Issue) : Value :=
  .obj [("type", .str i.kind.name), ("loc", .list (i.place.map Place.toValue))]

/-- The result of a check. -/
abbrev Checked (α : Type) := Except (List Issue) α

/-- A check of the value at a place. -/
abbrev Check := List Place → Value → Checked Value

namespace Check

/-- A field a model declares: its key, its check, and what stands for it when
it is not there. -/
structure Field where
  /-- The key. -/
  key : String
  /-- The check of the value. -/
  check : Check
  /-- The default; without one the field has to be there. -/
  default : Option Value := none

/-- The fields of an object that are not declared. -/
def others (declared : List Field) (fields : Fields) : Fields :=
  fields.filter (fun f => f.1 ∉ declared.map (fun d => Key.text d.key))

end Check

/-! ## Requests and answers -/

/-- Where a request is sent to. -/
structure Target where
  /-- The path. -/
  path : String
  /-- The parameters, if the target has any part for them. -/
  query : Option (List (String × String))
  deriving DecidableEq

/-- A request. -/
structure Request where
  /-- The method, in any case. -/
  method : String
  /-- The target. -/
  target : Target
  /-- Parameters in place of those in the target. -/
  query : Option (List (String × String)) := none
  /-- The body, if there is one. -/
  body : Option Value := none

/-- What is sent back besides a status. -/
inductive Content where
  /-- A value. -/
  | body (value : Value)
  /-- What is wrong with the request. -/
  | issues (issues : List Issue)
  /-- Nothing. -/
  | nothing

/-- An answer. -/
structure Response where
  /-- The status. -/
  status : Nat
  /-- What is sent with it. -/
  content : Content

namespace Response

/-- Something is wrong with the request. -/
def refused (issues : List Issue) : Response := ⟨422, .issues issues⟩

/-- Something went wrong with the work. -/
def failed : Response := ⟨500, .nothing⟩

end Response

/-- What the function of a route comes to, if it meets no fault. -/
inductive Reply where
  /-- A value. -/
  | value (value : Value)
  /-- A refusal: a status, and what is to be said with it. -/
  | refusal (status : Nat) (detail : Value)

/-- A route, as it is declared. -/
structure Route where
  /-- The method. -/
  method : String
  /-- The path. -/
  path : String
  /-- The check of the body, for a route that takes one. -/
  body? : Option Check := none
  /-- The parameters. -/
  parameters : List Check.Field := []
  /-- What is done with the body that was read, or with the parameters. -/
  run : Fields → Outcome Reply

/-! ## The packages -/

/-- **Whatever stands for the packages** the service is built on. -/
structure Framework where
  /-- How pydantic reads a text. -/
  text : Check
  /-- How pydantic reads a number, which may be whole or a fraction. -/
  number : Check
  /-- How pydantic reads a flag. -/
  flag : Check
  /-- How pydantic reads an object of any fields. -/
  object : Check
  /-- How pydantic reads one of some texts. -/
  oneOf : List String → Check
  /-- How pydantic reads what may be null. -/
  nullable : Check → Check
  /-- How pydantic reads a list, of which the items are read by a check. -/
  listOf : Check → Check
  /-- How pydantic reads an object as a model that declares some fields, and
  keeps those it does not declare or drops them. -/
  model : List Check.Field → Bool → Check
  /-- Whether a text has a form in UTF-8, in which Starlette writes answers; half of
  a surrogate pair, say, has none. -/
  encodes : String → Bool
  /-- How FastAPI answers a request by the routes of an application. -/
  serve : List Route → Request → Response
  /-- How networkx finds distances. -/
  search : Rank.Search

namespace Framework

/-- What is answered with a value that is sent as it is: a failure, if some text
in it cannot be written. -/
def answered (F : Framework) (status : Nat) (value : Value) : Response :=
  if Wire.allTexts F.encodes value then ⟨status, .body value⟩ else .failed

end Framework

end CallFlow
