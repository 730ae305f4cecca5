import RecordApi.Api.Payload
import RecordApi.Api.Route
import RecordApi.Console.Logger
import RecordApi.Http.Cors

/-!
# Applications

An application serves requests by its routes.  A request is judged by the guards of its
route before its payload is checked, then the method of the route runs, and hooks run after
an answer of success.  What cannot be answered by a route escapes to the application: the
console that cannot print a log entry, a guard that breaks, a page count beyond all bounds,
or a payload without a form in JSON.
-/

namespace RecordApi

structure Application where
  routes : List Route
  config : ServiceConfig := {}
  /-- Errors are answered in one form, also those that escape. -/
  handlesErrors : Bool := false
  logger : Console.Logger := {}

/-- What becomes of one request. -/
structure Exchange where
  response : Http.Response
  log : List String := []
  calls : List Call := []
  /-- The response may be shown to other origins; what escaped from a route may not. -/
  isShared : Bool := true

/-- What a route could not answer. -/
inductive Escape where
  /-- The console does not print a text whose markup is broken. -/
  | unprintable
  | outside (text : String)
deriving DecidableEq, Repr

namespace Application

open Http

def notWritable : Escape :=
  .outside "Out of range float values are not JSON compliant"

def console (app : Application) : Console.Logger :=
  { app.logger with output := [] }

/-- A detail that only a debugged application tells. -/
def debugDetail (app : Application) (text : String) : Value :=
  if app.config.debugMode then .text text else .null

def internalError (app : Application) (detail : String) : Response :=
  Response.ofValue 500
    (errorBody 500 (.text "Internal server error") (app.debugDetail detail))

def rejected (app : Application) (rejection : Rejection) : Response :=
  if app.handlesErrors then
    { status := rejection.status
      headers := rejection.headers
      body := .json (errorBody rejection.status rejection.detail .null) }
  else Response.ofDetail rejection

/-- The response to what escaped from a route, and what is logged about it. -/
def escapeResponse (app : Application) (escape : Escape) : Response × List String :=
  if app.handlesErrors then
    match escape with
    | .unprintable => ({ status := 500 }, [])
    | .outside text =>
        match app.console.message .error s!"Unhandled exception: {text}" with
        | (_, .raised) => ({ status := 500 }, [])
        | (console, .completed) => (app.internalError text, console.output)
  else ({ status := 500, body := .text "Internal Server Error" }, [])

def escaped (app : Application) (calls : List Call) (escape : Escape) : Exchange :=
  let (response, log) := app.escapeResponse escape
  { response, log, calls, isShared := false }

def failed (app : Application) (route : Route) (failure : Failure) : Escape ⊕ Exchange :=
  match app.console.message .error
      s!"{route.activity} failed in crud.py: {failure.summary}" with
  | (_, .raised) => .inl .unprintable
  | (console, .completed) =>
      .inr { response := app.internalError failure.text, log := console.output }

def answered (app : Application) (route : Route) (request : Request) :
    Outcome → Escape ⊕ Exchange
  | .missing => .inr { response := { status := 404 } }
  | .failed failure => app.failed route failure
  | .uncounted error => .inl (.outside (Failure.text (.pages error)))
  | .done payload =>
      if Json.isFiniteTree payload then
        .inr {
          response := Response.ofValue route.successStatus payload
          calls := (route.resource.options.afterHooks route.method).map (·.call request payload) }
      else .inl notWritable

def perform (app : Application) (route : Route) (id : String) (request : Request)
    (payload : Assoc Value) (db : Database) : (Escape ⊕ Exchange) × Database :=
  let (outcome, after) := route.resource.run route.method db ⟨id, request.items, payload⟩
  (app.answered route request outcome, after)

/-- The payload of a request, which only some methods have. -/
def payload (route : Route) (given : Given) : Except (List Issue) (Assoc Value) :=
  if route.method.hasBody then Payload.ofGiven route.resource.store.model given else .ok []

def body (route : Route) (request : Request) : Except Given.Error Given :=
  if route.method.hasBody then Given.ofRequest request else .ok .absent

/-- Serves a request whose body was read: the guards judge it first, then its payload is
checked, and then the method runs. -/
def guarded (app : Application) (route : Route) (id : String) (request : Request)
    (given : Given) (db : Database) : Exchange × Database :=
  match Guard.run request route.guards with
  | (.rejects rejection, calls) => ({ response := app.rejected rejection, calls }, db)
  | (.breaks text, calls) => (app.escaped calls (.outside text), db)
  | (.passes, calls) =>
      match payload route given with
      | .error issues => ({ response := { status := 422, body := .issues issues }, calls }, db)
      | .ok payload =>
          match app.perform route id request payload db with
          | (.inl escape, after) => (app.escaped calls escape, after)
          | (.inr exchange, after) => ({ exchange with calls := calls ++ exchange.calls }, after)

def serveBy (app : Application) (route : Route) (id : String) (request : Request)
    (db : Database) : Exchange × Database :=
  match body route request with
  | .error .malformed =>
      ({ response := { status := 422, body := .issues [⟨[Payload.root], .notJson⟩] } }, db)
  | .error .unreadable =>
      ({ response := app.rejected ⟨400, .text "There was an error parsing the body", []⟩ }, db)
  | .ok given => app.guarded route id request given db

/-! ## Finding a route -/

/-- The first route for the verb and the path of a request, with the id in the path. -/
def route? (app : Application) (request : Request) : Option (Route × String) :=
  app.routes.findSome? fun route =>
    if route.method.verb == request.verb then
      (route.match? request.path).map fun id => (route, id)
    else none

def hasPath (app : Application) (path : List Char) : Bool :=
  app.routes.any fun route => (route.match? path).isSome

/-- The path with a slash at its end, or without it where it has one. -/
def otherPath (path : List Char) : List Char :=
  if path.getLast? = some '/' then (path.reverse.dropWhile (· = '/')).reverse else path ++ ['/']

/-- The answer to a request without a route: its path has other verbs, or differs from a
path by the slash at its end, or is unknown. -/
def unrouted (app : Application) (request : Request) : Response :=
  match app.routes.find? fun route => (route.match? request.path).isSome with
  | some route =>
      Response.ofDetail ⟨405, .text "Method Not Allowed", [("allow", route.method.verb)]⟩
  | none =>
      if request.path ≠ ['/'] && app.hasPath (otherPath request.path) then { status := 307 }
      else Response.ofDetail ⟨404, .text "Not Found", []⟩

def serveAny (app : Application) (request : Request) (db : Database) : Exchange × Database :=
  match app.route? request with
  | some (route, id) => app.serveBy route id request db
  | none => ({ response := app.unrouted request }, db)

def sent (request : Request) (exchange : Exchange) : Exchange :=
  let response :=
    if exchange.isShared then Cors.grant request exchange.response else exchange.response
  { exchange with response := response.forVerb request.verb }

def serve (app : Application) (request : Request) (db : Database) : Exchange × Database :=
  match Cors.preflight? request with
  | some response => ({ response }, db)
  | none =>
      let (exchange, after) := app.serveAny request db
      (sent request exchange, after)

end Application
end RecordApi
