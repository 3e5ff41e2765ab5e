import Latchkey.Fingerprint
import Latchkey.Time.Instant

/-!
# Audit trails

Three trails only grow: what happened to an account, what an account was charged, and what changed
on a key. An entry keeps its event as a label, which can be read without knowing the events.
-/

namespace Latchkey

open Text

/-- The number of a row. All tables but that of devices share one count. -/
abbrev RowId := Int

/-- What happens to an account. -/
inductive SecurityEvent where
  | created
  | signIn
  | unrecognizedDevice
  | keyCreated (key : RowId)
  | keyDeleted (key : RowId)
  | passwordReset
  | fullName
  | billingAlert (enabled : Bool)
  | emailSubscription (enabled : Bool)
  deriving DecidableEq, Repr

/-- What an update does to a policy of a key. -/
inductive PolicyAction where
  | created
  | updated
  | deleted
  deriving DecidableEq, Repr

/-- What changes on a key. A flag of its scope is named by its path. -/
inductive KeyEvent where
  | created
  | name
  | scope (path : String) (value : Bool)
  | policy (action : PolicyAction) (range : String)
  | enabled (value : Bool)
  | deleted
  deriving DecidableEq, Repr

/-- A truth value in a label. -/
def boolText (b : Bool) : String :=
  if b then "true" else "false"

/-- An integer in a label or a message. -/
def intText (i : Int) : String :=
  String.ofList (integerText i)

/-- The action that the trail of an account records for an event. -/
def SecurityEvent.label : SecurityEvent → String
  | .created => "created"
  | .signIn => "signin"
  | .unrecognizedDevice => "unrecognized_device"
  | .keyCreated key => "create_key." ++ intText key
  | .keyDeleted key => "delete_key." ++ intText key
  | .passwordReset => "reset"
  | .fullName => "fullname"
  | .billingAlert b => "billing_alert_enabled." ++ boolText b
  | .emailSubscription b => "email_subscription_enabled." ++ boolText b

/-- The part of a label that says what became of a range. -/
def PolicyAction.label : PolicyAction → String
  | .created => "created"
  | .updated => "updated"
  | .deleted => "deleted"

/-- The action that the trail of a key records for an event. A range stands at the end, so that it
may hold any text. -/
def KeyEvent.label : KeyEvent → String
  | .created => "created"
  | .name => "name"
  | .scope path b => "scope." ++ path ++ "." ++ boolText b
  | .policy action range => "access_policy." ++ action.label ++ "." ++ range
  | .enabled b => "enabled." ++ boolText b
  | .deleted => "delete_key"

/-- An entry about an account that has no row number yet. -/
structure NewSecurityEntry where
  account : RowId
  action : String
  fingerprint : Option Fingerprint
  createdAt : Instant
  deriving DecidableEq

/-- The entry for an event, with the fingerprint of the request behind it if there was one. -/
def NewSecurityEntry.ofEvent (account : RowId) (event : SecurityEvent) (now : Instant)
    (fingerprint : Option Fingerprint) : NewSecurityEntry :=
  ⟨account, event.label, fingerprint, now⟩

/-- An entry about an account. -/
structure SecurityEntry where
  id : RowId
  account : RowId
  action : String
  fingerprint : Option Fingerprint
  createdAt : Instant
  deriving DecidableEq

/-- An entry about a key. -/
structure KeyEntry where
  id : RowId
  key : RowId
  action : String
  createdAt : Instant
  deriving DecidableEq

/-- A charge that has no row number yet. The amount is text, as the provider reported it. -/
structure NewCharge where
  account : RowId
  action : String
  amount : String
  createdAt : Instant
  deriving DecidableEq

/-- A charge to an account. -/
structure Charge where
  id : RowId
  account : RowId
  action : String
  amount : String
  createdAt : Instant
  deriving DecidableEq

/-- A window on a trail whose newest entry comes first. -/
structure Page where
  limit : Int := 50
  offset : Int := 0
  deriving DecidableEq, Repr

/-- The entries in a window. Numbers below zero count as zero. -/
def Page.newestFirst {α : Type} (page : Page) (rows : List α) : List α :=
  (rows.reverse.drop page.offset.toNat).take page.limit.toNat

end Latchkey
