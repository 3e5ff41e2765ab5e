import Latchkey.Keyring

/-!
# The service

All that can be asked of the service, as data: an operation with the type of its answer. A history
of the service is a list of operations, each with what it was given from outside.
-/

namespace Latchkey

/-- An operation, by the type of its answer. -/
inductive Operation : Type → Type where
  | signUp (username password : String) : Operation Tokens
  | signIn (username password : String) (fingerprint : Option Fingerprint) : Operation Tokens
  | refresh (token : Uuid) : Operation Tokens
  | authenticateBearer (token : String) : Operation Principal
  | forgotPassword (username : String) : Operation Account
  | resetPassword (password : String) (token : Uuid) : Operation Account
  | activeDevices (username : String) : Operation (List Device)
  | revokeDevice (username : String) (token : Uuid) : Operation Unit
  | revokeAllDevices (username : String) : Operation Nat
  | findAccount (username : String) : Operation Account
  | updateAccount (username : String) (update : ProfileUpdate) : Operation Account
  | securityPage (username : String) (page : Page) : Operation (List SecurityEntry)
  | chargePage (username : String) (page : Page) : Operation (List Charge)
  | createKey (username : String) (request : KeyRequest) : Operation IssuedKey
  | updateKey (username : String) (id : RowId) (update : KeyUpdate) : Operation ApiKey
  | deleteKey (username : String) (id : RowId) : Operation Unit
  | authenticateKey (raw : String) : Operation (Option ApiKey)
  | countKeys (username : String) : Operation Nat
  | listKeys (username : String) : Operation (List ApiKey)
  | findKey (username : String) (id : RowId) : Operation ApiKey
  | keyPage (username : String) (id : RowId) (page : Page) : Operation (List KeyEntry)

/-- The rules of a service. Passwords and keys are different secrets, each with its own hasher. -/
structure Service where
  session : SessionSettings
  keyLimit : Int
  passwords : Hasher
  keys : Hasher

/-- How many keys an account may have where nothing else is said. -/
def defaultKeyLimit : Int := 10

/-- The request that an operation is. -/
def Service.request (s : Service) (given : Given) {α : Type} (op : Operation α) : Request α :=
  match op with
  | .signUp username password => Session.signUp s.session s.passwords given username password
  | .signIn username password fingerprint =>
    Session.signIn s.session s.passwords given username password fingerprint
  | .refresh token => Session.refresh s.session given token
  | .authenticateBearer token => Session.authenticateBearer s.session given token
  | .forgotPassword username => Session.forgotPassword given username
  | .resetPassword password token =>
    Session.resetPassword s.session s.passwords given password token
  | .activeDevices username => Session.activeDevices given username
  | .revokeDevice username token => Session.revokeDevice username token
  | .revokeAllDevices username => Session.revokeAllDevices username
  | .findAccount username => Session.findAccount username
  | .updateAccount username update => Session.updateAccount given username update
  | .securityPage username page => Session.securityPage username page
  | .chargePage username page => Session.chargePage username page
  | .createKey username request => Keyring.create s.keyLimit s.keys given username request
  | .updateKey username id update => Keyring.update given username id update
  | .deleteKey username id => Keyring.delete given username id
  | .authenticateKey raw => Keyring.authenticate s.keys raw
  | .countKeys username => Keyring.count username
  | .listKeys username => Keyring.list username
  | .findKey username id => Keyring.find username id
  | .keyPage username id page => Keyring.page username id page

end Latchkey
