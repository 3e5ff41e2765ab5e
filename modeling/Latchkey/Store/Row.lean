import Latchkey.Json.Forms

/-!
# Rows of a database

How a database keeps what has parts: a scope, a list of policies and a fingerprint are columns of
JSON text, everything else is a column of its own. Accounts, charges and the entries about keys have
no such columns and are their own rows. Reading a row fails if one of its columns does not hold what
it should.
-/

namespace Latchkey

open Json

/-- What a column of JSON text holds. -/
def readColumn? {α : Type} (read : Json → Option α) (column : String) : Option α :=
  (Json.ofString? column).bind read

/-- What a column holds that may be empty. -/
def readNullable? {α : Type} (read : Json → Option α) : Option String → Option (Option α)
  | none => some none
  | some column => (readColumn? read column).map some

/-- The column of a fingerprint, if there is one. -/
def fingerprintColumn (f : Option Fingerprint) : Option String :=
  f.map fun f => f.toJson.toString

/-- The row of a key. -/
structure KeyRow where
  id : RowId
  account : RowId
  name : String
  lead : String
  digest : String
  enabled : Bool
  scope : String
  policies : String
  createdAt : Instant
  modifiedAt : Option Instant
  deletedAt : Option Instant
  deriving DecidableEq

namespace KeyRow

/-- The row that keeps a key. -/
def ofKey (k : ApiKey) : KeyRow :=
  { id := k.id, account := k.account, name := k.name, lead := k.lead, digest := k.digest
    enabled := k.enabled, scope := k.scope.toJson.toString
    policies := (Policy.listToJson k.policies).toString, createdAt := k.createdAt
    modifiedAt := k.modifiedAt, deletedAt := k.deletedAt }

/-- The key of a row, if its scope and its policies can be read. -/
def toKey? (r : KeyRow) : Option ApiKey := do
  let scope ← readColumn? Scope.ofJson? r.scope
  let policies ← readColumn? (asList? Policy.ofJson?) r.policies
  return {
    id := r.id, account := r.account, name := r.name, lead := r.lead, digest := r.digest
    enabled := r.enabled, scope, policies, createdAt := r.createdAt
    modifiedAt := r.modifiedAt, deletedAt := r.deletedAt }

end KeyRow

/-- The row of an entry about an account. -/
structure SecurityRow where
  id : RowId
  account : RowId
  action : String
  fingerprint : Option String
  createdAt : Instant
  deriving DecidableEq

namespace SecurityRow

/-- The row that keeps an entry. -/
def ofEntry (e : SecurityEntry) : SecurityRow :=
  { id := e.id, account := e.account, action := e.action
    fingerprint := fingerprintColumn e.fingerprint, createdAt := e.createdAt }

/-- The entry of a row, if its fingerprint can be read. -/
def toEntry? (r : SecurityRow) : Option SecurityEntry := do
  let fingerprint ← readNullable? Fingerprint.ofJson? r.fingerprint
  return { id := r.id, account := r.account, action := r.action, fingerprint
           createdAt := r.createdAt }

end SecurityRow

/-- The row of a device. -/
structure DeviceRow where
  token : Uuid
  account : RowId
  createdAt : Instant
  expiresAt : Instant
  fingerprint : Option String
  deriving DecidableEq

namespace DeviceRow

/-- The row that keeps a device. -/
def ofDevice (d : Device) : DeviceRow :=
  { token := d.token, account := d.account, createdAt := d.createdAt, expiresAt := d.expiresAt
    fingerprint := fingerprintColumn d.fingerprint }

/-- The device of a row, if its fingerprint can be read. -/
def toDevice? (r : DeviceRow) : Option Device := do
  let fingerprint ← readNullable? Fingerprint.ofJson? r.fingerprint
  return { token := r.token, account := r.account, createdAt := r.createdAt
           expiresAt := r.expiresAt, fingerprint }

end DeviceRow

end Latchkey
