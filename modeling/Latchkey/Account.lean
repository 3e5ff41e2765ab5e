import Latchkey.Failure
import Latchkey.Patch
import Latchkey.Uuid

/-!
# Accounts and devices

An account, the devices signed in to it, and what a request may change on its profile.
-/

namespace Latchkey

/-- What is kept of an account. The token and its expiry are there while a password reset is
pending. -/
structure Account where
  id : RowId
  username : String
  passwordDigest : String
  fullName : Option String
  emailSubscription : Bool
  billingAlert : Bool
  roles : List String
  resetToken : Option Uuid
  resetExpiresAt : Option Instant
  createdAt : Instant
  deriving DecidableEq

namespace Account

/-- The account with a pending reset, which replaces an earlier one. -/
def withReset (a : Account) (token : Uuid) (expiresAt : Instant) : Account :=
  { a with resetToken := some token, resetExpiresAt := some expiresAt }

/-- The account without a pending reset. -/
def withoutReset (a : Account) : Account :=
  { a with resetToken := none, resetExpiresAt := none }

end Account

/-- An account that has no row number yet. -/
structure NewAccount where
  username : String
  passwordDigest : String
  roles : List String
  createdAt : Instant
  deriving DecidableEq

/-- The row that a new account gets. -/
def NewAccount.row (a : NewAccount) (id : RowId) : Account :=
  { id, username := a.username, passwordDigest := a.passwordDigest, fullName := none
    emailSubscription := false, billingAlert := false, roles := a.roles
    resetToken := none, resetExpiresAt := none, createdAt := a.createdAt }

/-- What is to change on the profile of an account. A full name may be cleared. -/
structure ProfileUpdate where
  fullName : Patch (Option String) := .keep
  emailSubscription : Patch Bool := .keep
  billingAlert : Patch Bool := .keep
  deriving DecidableEq, Repr

/-- An account after an update, and what the update changed. -/
structure ProfileChange where
  account : Account
  events : List SecurityEvent
  deriving DecidableEq

namespace ProfileUpdate

/-- Sets or clears the full name. -/
def editFullName (u : ProfileUpdate) (a : Account) : ProfileChange :=
  match u.fullName.change? a.fullName with
  | none => ⟨a, []⟩
  | some fullName => ⟨{ a with fullName }, [.fullName]⟩

/-- Switches billing alerts. -/
def editBillingAlert (u : ProfileUpdate) (a : Account) : ProfileChange :=
  match u.billingAlert.change? a.billingAlert with
  | none => ⟨a, []⟩
  | some billingAlert => ⟨{ a with billingAlert }, [.billingAlert billingAlert]⟩

/-- Switches the email subscription. -/
def editEmailSubscription (u : ProfileUpdate) (a : Account) : ProfileChange :=
  match u.emailSubscription.change? a.emailSubscription with
  | none => ⟨a, []⟩
  | some emailSubscription =>
    ⟨{ a with emailSubscription }, [.emailSubscription emailSubscription]⟩

/-- The account after the update and one event for each thing that changed. -/
def apply (u : ProfileUpdate) (a : Account) : ProfileChange :=
  let named := u.editFullName a
  let alerted := u.editBillingAlert named.account
  let subscribed := u.editEmailSubscription alerted.account
  ⟨subscribed.account, named.events ++ alerted.events ++ subscribed.events⟩

end ProfileUpdate

/-- A device that is signed in to an account. Its token is what it refreshes its access with. -/
structure Device where
  token : Uuid
  account : RowId
  createdAt : Instant
  expiresAt : Instant
  fingerprint : Option Fingerprint
  deriving DecidableEq

/-- The device may refresh its access: now comes strictly before its expiry. -/
def Device.isActive (d : Device) (now : Instant) : Bool :=
  now.isBefore d.expiresAt

/-- What a client is given: an access token, the token of its device if it has one, and how long
the access lasts, in seconds. -/
structure Tokens where
  access : String
  refresh : Option Uuid
  expiresIn : Int
  deriving DecidableEq

/-- Who a valid access token speaks for. -/
structure Principal where
  username : String
  roles : List String
  deriving DecidableEq

end Latchkey
