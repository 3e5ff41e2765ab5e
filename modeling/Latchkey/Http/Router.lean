import Latchkey.Http.Auth
import Latchkey.Json.Forms

/-!
# Routes

Three routes, each answered to `GET` and `HEAD` alone; everything else is not found. Around them
stand the headers that let pages of other origins ask, and an identifier for each request.
-/

namespace Latchkey.Http

/-- What a path leads to. -/
inductive Route where
  | health
  | account
  | key
  deriving DecidableEq, Repr

/-- The path that leads to a route. -/
def Route.path : Route → String
  | .health => "/health"
  | .account => "/api/v1/me"
  | .key => "/api/v1/keys/current"

/-- The route of a path. Paths are compared as they are written. -/
def Route.ofPath? (path : String) : Option Route :=
  [Route.health, .account, .key].find? (·.path = path)

/-! ## Handlers -/

/-- The version that is reported. -/
def version : String := "0.1.0"

/-- The state of the service: degraded if there is a database that cannot be reached. -/
def healthBody (app : App) : Json :=
  .object [("status", .text (if app.database = some false then "degraded" else "ok")),
    ("version", .text version),
    ("db_healthy", match app.database with
      | none => .null
      | some up => .bool up)]

/-- The account of a bearer token, and the fingerprint of the request as a sign-in would see it. -/
def currentAccount (app : App) (given : Given) (m : Message) : Handler Json := do
  let principal ← authenticateAccount app given m
  let account ← app.perform given (.findAccount principal.username)
  return .object [("account", account.toJson),
    ("request_metadata", optionalFingerprint (m.caller.fingerprint? app.table))]

/-- The key of a request. -/
def currentKey (app : App) (given : Given) (m : Message) : Handler Json := do
  return (← authenticateKey app given m).toJson

/-- A value as the data of a response. -/
def dataBody (v : Json) : Json :=
  .object [("data", v)]

/-- What a route answers to a request for it. -/
def Route.handle (app : App) (given : Given) (m : Message) : Route → Handler Json
  | .health => return healthBody app
  | .account => return dataBody (← currentAccount app given m)
  | .key => return dataBody (← currentKey app given m)

/-! ## Responses -/

/-- The field that says that a body is JSON. -/
def jsonType : Field := field "content-type" "application/json"

/-- A response with a body. -/
def jsonResponse (status : Nat) (body : Json) : Response :=
  ⟨status, [jsonType], some body⟩

/-- The response to a path that leads nowhere. -/
def notFound : Response :=
  jsonResponse 404 (.object [("error", .text "Endpoint not found"), ("code", .text "NOT_FOUND")])

/-- The methods that routes are answered to. -/
def allowed : Field := field "allow" "GET,HEAD"

/-- The response to another method. -/
def methodNotAllowed : Response :=
  ⟨405, [allowed], none⟩

/-- The response of a route. -/
def Route.respond (app : App) (given : Given) (m : Message) (r : Route) : Program Response := do
  match ← (r.handle app given m).run with
  | .ok body => return jsonResponse 200 body
  | .error problem =>
    let report := problem.report
    return jsonResponse report.status report.body

/-- The response to a request, before headers are added that all responses have. -/
def dispatch (app : App) (given : Given) (m : Message) : Program Response :=
  match Route.ofPath? m.route with
  | none => return notFound
  | some route =>
    if m.method = "GET" || m.method = "HEAD" then route.respond app given m
    else return methodNotAllowed

/-! ## Headers of all responses -/

/-- The header that identifies a request. -/
def requestIdName : String := "x-request-id"

/-- The origin of a request is named in the response if it is an allowed one. -/
def originHeaders (app : App) (m : Message) : List Field :=
  match m.header? "origin" with
  | none => []
  | some origin =>
    if origin ∈ app.origins.map Text.bytes then [("access-control-allow-origin", origin)] else []

/-- The headers for pages of other origins that every response has. -/
def crossOriginHeaders (app : App) (m : Message) : List Field :=
  field "access-control-allow-credentials" "true" :: originHeaders app m

/-- The response to a page that asks what it may ask. -/
def preflight (app : App) (m : Message) : Response where
  status := 200
  headers := crossOriginHeaders app m ++
    [field "access-control-allow-methods" "GET",
      field "access-control-allow-headers" "content-type,authorization",
      field "access-control-max-age" "3600"] ++
    (if (Route.ofPath? m.route).isSome then [allowed] else [])
  body := none

/-- The identifier of a request: what its sender calls it, or a new one. -/
def requestId (given : Given) (m : Message) : FieldValue :=
  (m.header? requestIdName).getD (Text.bytes given.uuid.toString)

/-- The response to a request. -/
def respond (app : App) (given : Given) (m : Message) : Program Response := do
  if m.method = "OPTIONS" then return preflight app m
  else
    let inner ← dispatch app given m
    return {
      status := inner.status
      headers := inner.headers ++ crossOriginHeaders app m ++
        [field "access-control-expose-headers" requestIdName, (requestIdName, requestId given m)]
      body := if m.method = "HEAD" then none else inner.body }

end Latchkey.Http
