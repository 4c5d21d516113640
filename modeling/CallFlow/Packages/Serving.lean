import CallFlow.Packages.Reading
import CallFlow.Text.UpperCase

/-!
# A stand-in for FastAPI

How a request is answered where the service is run. The route of its path is
looked up; a path with a slash too many is answered with the advice to look
elsewhere, and one that is found but not with this method, with that. What the
route takes is read, and what is wrong with it is answered with status 422. What
its function comes to is answered with status 200; a refusal has a status of its
own, and a fault is answered with 500 and nothing else.

Together with the stand-in for pydantic, and a search for distances in place of
networkx, this makes up the framework the service is run on
(`Framework.standIn`).
-/

namespace CallFlow

namespace Packages

/-! ## Paths -/

/-- A path without a line break at its end. -/
def withoutFinalBreak (path : String) : String :=
  if path.toList.getLast? = some '\n' then String.ofList path.toList.dropLast else path

/-- The route of a path, if there is one. A line break at the end of the
path does not count. -/
def routeOf? (routes : List Route) (path : String) : Option Route :=
  routes.find? (fun route => route.path = withoutFinalBreak path)

/-- A path without slashes at its end. -/
def withoutFinalSlashes (path : String) : String :=
  String.ofList ((path.toList.reverse.dropWhile (· = '/')).reverse)

/-- Whether a path is that of a route with slashes too many at its end. -/
def isNear (routes : List Route) (path : String) : Bool :=
  (routeOf? routes path).isNone && (routeOf? routes (withoutFinalSlashes path)).isSome

/-! ## Answers -/

/-- The target is elsewhere. -/
def elsewhere : Response := ⟨307, .nothing⟩

/-- A status with a line of explanation. -/
def explained (status : Nat) (detail : String) : Response :=
  ⟨status, .body (.obj [("detail", .str detail)])⟩

/-- The answer to what the function of a route comes to. -/
def answerTo (outcome : Outcome Reply) : Response :=
  match outcome with
  | .ok (.value value) => ⟨200, .body (Wire.sendable value)⟩
  | .ok (.refusal status detail) => ⟨status, .body (.obj [("detail", detail)])⟩
  | .error _ => .failed

/-- Reads a body and runs a route on it. -/
def withBody (route : Route) (check : Check) (body : Option Value) : Response :=
  let place : List Place := [.field "body"]
  match body with
  | none => .refused [⟨.missing, place⟩]
  | some value =>
    match check place value with
    | .error issues => .refused issues
    | .ok read => answerTo (route.run read.fieldsOrNone)

/-- Runs a route that takes no body on its parameters. Of a parameter stated
more than once the last counts. -/
def withoutBody (route : Route) (query : List (String × String)) : Response :=
  let stated : Fields := query.reverse.map fun p => (Key.text p.1, .str p.2)
  match Checked.all (route.parameters.map (readField [.field "query"] stated)) with
  | .error issues => .refused issues
  | .ok read => answerTo (route.run read)

/-- Runs a route. -/
def run (route : Route) (query : List (String × String)) (body : Option Value) : Response :=
  match route.body? with
  | some check => withBody route check body
  | none => withoutBody route query

/-- The method that asks for an answer without what is sent with it. -/
def headMethod : String := "HEAD"

/-- Answers a request by its method and path. -/
def serveAt (routes : List Route) (method path : String) (query : List (String × String))
    (body : Option Value) : Response :=
  match routeOf? routes path with
  | none => if isNear routes path then elsewhere else explained 404 "Not Found"
  | some route =>
    if route.method = method then run route query body else explained 405 "Method Not Allowed"

/-- Answers a request. -/
def serve (routes : List Route) (request : Request) : Response :=
  let method := UpperCase.ofText request.method
  let response := serveAt routes method request.target.path
    (request.query.getD (request.target.query.getD [])) request.body
  if method = headMethod then { response with content := .nothing } else response

end Packages

/-- **The framework the service is run on.** Every text it knows has a form in
UTF-8. -/
def Framework.standIn : Framework where
  text := Packages.text
  number := Packages.number
  flag := Packages.flag
  object := Packages.object
  oneOf := Packages.oneOf
  nullable := Packages.nullable
  listOf := Packages.listOf
  model := Packages.model
  encodes _ := true
  serve := Packages.serve
  search := Rank.distances

end CallFlow
