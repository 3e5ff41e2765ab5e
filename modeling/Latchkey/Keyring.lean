import Latchkey.Session

/-!
# Keyrings

What the owner of an account can do with its keys, and how a presented key is resolved. A key that
is missing, deleted or another account's is the same to every request.
-/

namespace Latchkey.Keyring

variable (limit : Int) (hasher : Hasher) (given : Given)

/-- Adds a key within the account's quota. Its text is shown here and never again. -/
def create (username : String) (request : KeyRequest) : Request IssuedKey := do
  Request.accept (checkKeyName request.name)
  let policies := request.policies.getD []
  Request.accept (checkPolicies policies)
  let account ← Session.findAccount username
  let text := given.rawKey.text
  let digest ← hasher.digest given.salt text
  let inserted ← Request.ofCall (.insertKey
    { account := account.id, name := request.name, lead := given.rawKey.leadText, digest
      enabled := request.enabled.getD false, scope := request.scope.getD {}, policies
      createdAt := given.now } limit)
  let key ← Request.orFail inserted (.quotaExceeded limit)
  Request.send ⟨account, .keyCreated key⟩
  return ⟨key, text⟩

/-- The edit of an update: a key that changes is marked with the time. -/
def editBy (update : KeyUpdate) (now : Instant) (key : ApiKey) : KeyChange :=
  let change := update.apply key
  if change.events.isEmpty then change
  else { change with key := { change.key with modifiedAt := some now } }

/-- Changes what differs. Each change is put on record; without one nothing is written. -/
def update (username : String) (id : RowId) (u : KeyUpdate) : Request ApiKey := do
  Request.accept u.check
  let account ← Session.findAccount username
  let modified ← Request.ofCall (.modifyKey account.id id (editBy u given.now) none given.now)
  let change ← Request.orFail modified (.keyNotFound id)
  return change.key

/-- The edit of a deletion. -/
def tombstone (now : Instant) (key : ApiKey) : KeyChange :=
  ⟨{ key with deletedAt := some now }, [.deleted]⟩

/-- Deletes a key for good. -/
def delete (username : String) (id : RowId) : Request Unit := do
  let account ← Session.findAccount username
  let modified ← Request.ofCall
    (.modifyKey account.id id (tombstone given.now) (some (.keyDeleted id)) given.now)
  let change ← Request.orFail modified (.keyNotFound id)
  Request.send ⟨account, .keyDeleted change.key⟩

/-- The row holds the digest of this key. A digest that cannot be checked fits no key. -/
def fits (raw : String) (key : ApiKey) : Bool :=
  match hasher.verify raw key.digest with
  | .ok fitting => fitting
  | .error _ => false

/-- The key that a text is, if it is one. Disabled keys are found too; whether a key may be used
is for the caller to decide. -/
def authenticate (raw : String) : Request (Option ApiKey) := do
  match RawKey.lead? raw with
  | none => return none
  | some lead => return (← Request.ofCall (.listKeysLedBy lead)).find? (fits hasher raw)

/-- How many keys an account has. -/
def count (username : String) : Request Nat := do
  let account ← Session.findAccount username
  Request.ofCall (.countKeys account.id)

/-- The keys of an account, oldest first. -/
def list (username : String) : Request (List ApiKey) := do
  let account ← Session.findAccount username
  Request.ofCall (.listKeys account.id)

/-- A key of an account. -/
def owned (account : Account) (id : RowId) : Request ApiKey := do
  let found ← Request.ofCall (.findKey account.id id)
  Request.orFail found (.keyNotFound id)

/-- A key by its number. -/
def find (username : String) (id : RowId) : Request ApiKey := do
  let account ← Session.findAccount username
  owned account id

/-- What changed on a key, newest first. -/
def page (username : String) (id : RowId) (page : Page) : Request (List KeyEntry) := do
  let account ← Session.findAccount username
  let key ← owned account id
  Request.ofCall (.keyPage key.id page)

end Latchkey.Keyring
