import Latchkey.Failure
import Latchkey.Scope

/-!
# API keys

A key as it is issued, the row that is kept of it, and what a request may change on that row. The
text of a key begins with seven characters that are no secret: rows are looked up by them before
the digest of the whole text is checked.
-/

namespace Latchkey

open Text

/-! ## The text of a key -/

/-- The sixty-two letters and digits of ASCII. -/
def alphanumeric (i : Fin 62) : Char :=
  if i.val < 26 then Char.ofNat ('A'.toNat + i.val)
  else if i.val < 52 then Char.ofNat ('a'.toNat + (i.val - 26))
  else Char.ofNat ('0'.toNat + (i.val - 52))

/-- A freshly drawn key: seven letters or digits to find it by and thirty-two that are secret. -/
structure RawKey where
  lead : Vector (Fin 62) 7
  payload : Vector (Fin 62) 32
  deriving DecidableEq

namespace RawKey

/-- The part that a key is looked up by. -/
def leadText (k : RawKey) : String :=
  String.ofList (k.lead.toList.map alphanumeric)

/-- The part that is secret. -/
def payloadText (k : RawKey) : String :=
  String.ofList (k.payload.toList.map alphanumeric)

/-- The key as its owner sees it, once. -/
def text (k : RawKey) : String :=
  k.leadText ++ "." ++ k.payloadText

/-- What a presented key is looked up by: the trimmed text before its first dot, unless that is
empty. -/
def lead? (raw : String) : Option String :=
  let lead := trimChars (before '.' raw.toList)
  if lead.isEmpty then none else some (String.ofList lead)

/-- The key in the value of an `Authorization` header of the scheme for keys. -/
def ofAuthorization? (value : String) : Option String := do
  let rest ← dropStart? "ApiKey ".toList value.toList
  let key := trimChars rest
  if key.isEmpty then none else some (String.ofList key)

end RawKey

/-! ## Rows -/

/-- What is kept of a key. -/
structure ApiKey where
  id : RowId
  account : RowId
  name : String
  lead : String
  digest : String
  enabled : Bool
  scope : Scope
  policies : List Policy
  createdAt : Instant
  modifiedAt : Option Instant
  deletedAt : Option Instant
  deriving DecidableEq

/-- A deleted key keeps its row and nothing else: it is never found again. -/
def ApiKey.isDeleted (k : ApiKey) : Bool :=
  k.deletedAt.isSome

/-- The key lets a request from this address in. -/
def ApiKey.permits (k : ApiKey) (ip : Net.Address) : Bool :=
  Policy.permits k.policies ip

/-- A key that has no row number yet. -/
structure NewApiKey where
  account : RowId
  name : String
  lead : String
  digest : String
  enabled : Bool
  scope : Scope
  policies : List Policy
  createdAt : Instant
  deriving DecidableEq

/-- The row that a new key gets. -/
def NewApiKey.row (k : NewApiKey) (id : RowId) : ApiKey :=
  { id, account := k.account, name := k.name, lead := k.lead, digest := k.digest
    enabled := k.enabled, scope := k.scope, policies := k.policies, createdAt := k.createdAt
    modifiedAt := none, deletedAt := none }

/-- A key with its text, as its owner is shown it once. -/
structure IssuedKey where
  key : ApiKey
  text : String
  deriving DecidableEq

/-! ## Requests -/

/-- A key may have any name that is not blank. -/
def checkKeyName (name : String) : Except Invalid Unit :=
  if isBlankText name then .error .blankKeyName else .ok ()

/-- A list of policies as a request gives it. -/
def checkPolicies (ps : List Policy) : Except Invalid Unit :=
  (Policy.check ps).mapError .policy

/-- What is wanted of a new key. What is left out means disabled, an empty scope, no policies. -/
structure KeyRequest where
  name : String
  enabled : Option Bool := none
  scope : Option Scope := none
  policies : Option (List Policy) := none
  deriving DecidableEq, Repr

/-- What is to change on a key. -/
structure KeyUpdate where
  name : Patch String := .keep
  scope : Patch ScopePatch := .keep
  policies : Patch (List Policy) := .keep
  enabled : Patch Bool := .keep
  deriving DecidableEq, Repr

/-- The first fault of an update, its name before its policies. -/
def KeyUpdate.check (u : KeyUpdate) : Except Invalid Unit := do
  match u.name with
  | .keep => pure ()
  | .set name => checkKeyName name
  match u.policies with
  | .keep => pure ()
  | .set ps => checkPolicies ps

/-- A key after an edit, and what the edit changed. -/
structure KeyChange where
  key : ApiKey
  events : List KeyEvent
  deriving DecidableEq

namespace KeyUpdate

/-- Gives the key the name of the update. -/
def editName (u : KeyUpdate) (k : ApiKey) : KeyChange :=
  match u.name.change? k.name with
  | none => ⟨k, []⟩
  | some name => ⟨{ k with name }, [.name]⟩

/-- Gives the key the flags of the update. -/
def editScope (u : KeyUpdate) (k : ApiKey) : KeyChange :=
  match u.scope with
  | .keep => ⟨k, []⟩
  | .set p =>
    ⟨{ k with scope := k.scope.update p }, (k.scope.changes p).map fun (f, b) => .scope f.path b⟩

/-- Gives the key the policies of the update. -/
def editPolicies (u : KeyUpdate) (k : ApiKey) : KeyChange :=
  match u.policies with
  | .keep => ⟨k, []⟩
  | .set ps =>
    let change := Policy.reconcile k.policies ps
    ⟨{ k with policies := change.policies }, change.events⟩

/-- Enables or disables the key. -/
def editEnabled (u : KeyUpdate) (k : ApiKey) : KeyChange :=
  match u.enabled.change? k.enabled with
  | none => ⟨k, []⟩
  | some enabled => ⟨{ k with enabled }, [.enabled enabled]⟩

/-- The key after the update and one event for each thing that changed: name, flags, policies and
whether it is enabled, in this order. -/
def apply (u : KeyUpdate) (k : ApiKey) : KeyChange :=
  let named := u.editName k
  let flagged := u.editScope named.key
  let bound := u.editPolicies flagged.key
  let switched := u.editEnabled bound.key
  ⟨switched.key, named.events ++ flagged.events ++ bound.events ++ switched.events⟩

end KeyUpdate

end Latchkey
