import Latchkey.AccessToken
import Latchkey.Digest
import Latchkey.Email
import Latchkey.Origin

/-!
# Sessions

What the owner of an account can ask for: signing up and in, refreshing access, resetting a
password, looking after devices and the profile. A request that fails has changed nothing, but for
what the check of its origin has put on record.
-/

namespace Latchkey

open Text

/-- What a request is given besides its arguments: the time, and values nobody can guess. -/
structure Given where
  now : Instant
  uuid : Uuid
  tokenId : Uuid
  salt : Vector UInt8 16
  rawKey : RawKey

/-- How access tokens are signed and how long they last. -/
structure TokenSettings where
  secret : String
  minutes : Int
  deriving DecidableEq

/-- The rules of sessions. -/
structure SessionSettings where
  tokens : TokenSettings
  refreshDays : Int := 30
  minPassword : Nat := 8
  /-- The role of every new account. -/
  role : String := "admin"
  deriving DecidableEq

/-- How long an access token lasts, in seconds. -/
def TokenSettings.lifetime (s : TokenSettings) : Int :=
  wrapWord (s.minutes * 60)

/-- The claims of a token for an account that is issued at a time. -/
def TokenSettings.claims (s : TokenSettings) (username : String) (roles : List String)
    (now : Instant) (id : Uuid) : Claims :=
  { subject := username, roles, expiresAt := wrapWord (now.seconds + s.lifetime)
    issuedAt := now.seconds, tokenId := id.toString }

/-- The access token for an account. -/
def TokenSettings.issue (s : TokenSettings) (username : String) (roles : List String)
    (now : Instant) (id : Uuid) : String :=
  AccessToken.issue s.secret (s.claims username roles now id)

/-- A password has at least so many characters. -/
def checkPassword (minimum : Nat) (password : String) : Except Invalid Unit :=
  if password.length < minimum then .error (.shortPassword minimum) else .ok ()

/-- A username is an email address. -/
def checkUsername (username : String) : Except Invalid Unit :=
  if Email.isValid username then .ok () else .error .username

namespace Session

variable (settings : SessionSettings) (hasher : Hasher) (given : Given)

/-- What an account is given for itself, with the token of its device if it has one. -/
def tokensFor (account : Account) (refresh : Option Uuid) : Tokens where
  access := settings.tokens.issue account.username account.roles given.now given.tokenId
  refresh := refresh
  expiresIn := settings.tokens.lifetime

/-- The account of this name, which must be there. -/
def findAccount (username : String) : Request Account := do
  let found ← Request.ofCall (.findAccountNamed username)
  Request.orFail found (.notFound .account username)

/-! ## Signing up and in -/

/-- Adds an account and gives it access. Its first device comes with its first sign-in. -/
def signUp (username password : String) : Request Tokens := do
  Request.accept (checkUsername username)
  Request.accept (checkPassword settings.minPassword password)
  if ← Request.ofCall (.isTaken username) then throw .usernameUnavailable
  let digest ← hasher.digest given.salt password
  let inserted ← Request.ofCall (.insertAccount
    { username, passwordDigest := digest, roles := [settings.role], createdAt := given.now })
  let account ← Request.orFail inserted .usernameUnavailable
  Request.send ⟨account, .accountCreated⟩
  return tokensFor settings given account none

/-- The password that is checked where there is no account, so that it takes as long. -/
def decoyPassword : String := "dummy-password-for-unknown-accounts"

/-- Refuses a sign-in under an unknown name, after the work of a check. -/
def refuseUnknown (password : String) : Request Tokens := do
  let digest ← hasher.digest given.salt decoyPassword
  let _ ← hasher.verify password digest
  throw .invalidCredentials

/-- Gives access to the owner of a password and registers the device. -/
def signIn (username password : String) (fingerprint : Option Fingerprint) : Request Tokens := do
  match ← Request.ofCall (.findAccountNamed username) with
  | none => refuseUnknown hasher given password
  | some account =>
    if ← hasher.verify password account.passwordDigest then
      if let some f := fingerprint then
        let _ ← ExceptT.lift (Origin.verify account f given.now)
      let device ← Request.ofCall (.insertDevice
        { token := given.uuid, account := account.id, createdAt := given.now
          expiresAt := given.now.addDays settings.refreshDays, fingerprint })
      return tokensFor settings given account (some device.token)
    else throw .invalidCredentials

/-- Gives new access to a device that has not expired. -/
def refresh (token : Uuid) : Request Tokens := do
  let found ← Request.ofCall (.findDevice token)
  let device ← Request.orFail (found.filter (·.isActive given.now)) .invalidCredentials
  let found ← Request.ofCall (.findAccount device.account)
  let account ← Request.orFail found .invalidCredentials
  return tokensFor settings given account (some device.token)

/-- Whom an access token speaks for. The store is not asked. -/
def authenticateBearer (token : String) : Request Principal :=
  match AccessToken.check settings.tokens.secret given.now.seconds token with
  | .ok claims => return ⟨claims.subject, claims.roles⟩
  | .error _ => throw .invalidAccessToken

/-! ## Resetting a password -/

/-- How long a reset may be completed, in hours. -/
def resetHours : Int := 24

/-- Starts a reset, in place of an earlier one. -/
def forgotPassword (username : String) : Request Account := do
  let account ← findAccount username
  let account := account.withReset given.uuid (given.now.addHours resetHours)
  let account ← Request.ofCall (.saveAccount account [] given.now)
  Request.send ⟨account, .forgottenPassword⟩
  return account

/-- A pending reset has run out. -/
def isResetExpired (account : Account) (now : Instant) : Bool :=
  account.resetExpiresAt.all fun expiresAt => expiresAt.isBefore now

/-- Completes a reset with a new password. -/
def resetPassword (password : String) (token : Uuid) : Request Account := do
  let found ← Request.ofCall (.findAccountResetBy token)
  let account ← Request.orFail found .resetTokenNotFound
  if isResetExpired account given.now then throw .resetTokenExpired
  Request.accept (checkPassword settings.minPassword password)
  let digest ← hasher.digest given.salt password
  let account := { account.withoutReset with passwordDigest := digest }
  let account ← Request.ofCall (.saveAccount account [.passwordReset] given.now)
  Request.send ⟨account, .passwordReset⟩
  return account

/-! ## Devices -/

/-- The devices of an account that have not expired. The others are kept all the same. -/
def activeDevices (username : String) : Request (List Device) := do
  let account ← findAccount username
  let devices ← Request.ofCall (.listDevices account.id)
  return devices.filter (·.isActive given.now)

/-- Signs a device out. -/
def revokeDevice (username : String) (token : Uuid) : Request Unit := do
  let account ← findAccount username
  if ← Request.ofCall (.deleteDevice account.id token) then return ()
  else throw (.notFound .device token.toString)

/-- Signs all devices out and tells how many there were. -/
def revokeAllDevices (username : String) : Request Nat := do
  let account ← findAccount username
  Request.ofCall (.deleteDevicesOf account.id)

/-! ## Profile and trails -/

/-- Changes what differs. Each change is put on record; without one nothing is written. -/
def updateAccount (username : String) (update : ProfileUpdate) : Request Account := do
  let account ← findAccount username
  let change := update.apply account
  if change.events.isEmpty then return change.account
  else Request.ofCall (.saveAccount change.account change.events given.now)

/-- What happened to an account, newest first. -/
def securityPage (username : String) (page : Page) : Request (List SecurityEntry) := do
  let account ← findAccount username
  Request.ofCall (.securityPage account.id page)

/-- What an account was charged, newest first. -/
def chargePage (username : String) (page : Page) : Request (List Charge) := do
  let account ← findAccount username
  Request.ofCall (.chargePage account.id page)

end Session

end Latchkey
