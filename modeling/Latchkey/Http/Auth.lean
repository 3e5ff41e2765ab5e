import Latchkey.Http.Message
import Latchkey.Http.Problem
import Latchkey.Service

/-!
# Authentication

Two schemes share the `Authorization` header: bearer tokens speak for an account, keys for
programs. A key must be enabled and its policies must let the client in; the client is the peer of
the connection, and what a header says counts only behind a trusted proxy.
-/

namespace Latchkey.Http

open Text

/-- All that requests are answered with. -/
structure App where
  service : Service
  table : GeoTable
  proxies : List Net.Network
  origins : List String
  /-- Whether the database can be reached, if there is one. -/
  database : Option Bool

/-- The handling of a request, which may end in a problem. -/
abbrev Handler (α : Type) := ExceptT Problem Program α

/-- An operation of the service; its failure becomes the problem. -/
def App.perform {α : Type} (app : App) (given : Given) (op : Operation α) : Handler α :=
  ExceptT.adapt .failure (app.service.request given op)

/-- The value of the `Authorization` header. -/
def authorization (m : Message) : Except Problem String :=
  match m.text? "authorization" with
  | some value => .ok value
  | none => .error (.unauthorized "Missing Authorization header")

/-- The token behind the name of the bearer scheme, as it stands there. -/
def bearerToken (m : Message) : Except Problem String := do
  let value ← authorization m
  match dropStart? "Bearer ".toList value.toList with
  | some token => return String.ofList token
  | none =>
    throw (.unauthorized "Invalid Authorization format. Expected: Bearer <token>")

/-- The trimmed key behind the name of the scheme for keys. -/
def rawKey (m : Message) : Except Problem String := do
  let value ← authorization m
  match RawKey.ofAuthorization? value with
  | some raw => return raw
  | none => throw (.unauthorized "Invalid Authorization format. Expected: ApiKey <key>")

/-- Whom the token of a request speaks for. -/
def authenticateAccount (app : App) (given : Given) (m : Message) : Handler Principal := do
  let token ← bearerToken m
  app.perform given (.authenticateBearer token)

/-- The policies of a key let a client in. One whose address is not known is let in only if there
are none. -/
def admits (key : ApiKey) (client : Option Net.Address) : Bool :=
  key.policies.isEmpty || client.any key.permits

/-- The key of a request, if it may be used from where the request comes. -/
def authenticateKey (app : App) (given : Given) (m : Message) : Handler ApiKey := do
  let raw ← rawKey m
  match ← app.perform given (.authenticateKey raw) with
  | none => throw (.unauthorized "Invalid API key")
  | some key =>
    if !key.enabled then throw (.forbidden "API key is disabled")
    else if !admits key (m.caller.trustedAddress? app.proxies) then
      throw (.forbidden "Request origin is not permitted for this API key")
    else return key

end Latchkey.Http
