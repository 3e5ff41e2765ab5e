import Latchkey.Policy

/-!
# Failures

Why an operation is refused or breaks off, by cause, with one wording for each cause.
-/

namespace Latchkey

/-- Why an input is not acceptable. -/
inductive Invalid where
  | username
  | shortPassword (minimum : Nat)
  | blankKeyName
  | policy (fault : Policy.Fault)
  | geoTable
  | other (reason : String)
  deriving DecidableEq, Repr

/-- What is said of an input, to clients as well. -/
def Invalid.message : Invalid → String
  | .username => "Username must be a valid email address"
  | .shortPassword minimum =>
    "Password must be at least " ++ intText minimum ++ " characters long"
  | .blankKeyName => "API key name must not be empty"
  | .policy fault => fault.message
  | .geoTable => "Invalid geo table"
  | .other reason => reason

/-- What could not be found. -/
inductive Entity where
  | account
  | device
  deriving DecidableEq, Repr

/-- What messages call it. -/
def Entity.name : Entity → String
  | .account => "account"
  | .device => "device"

/-- A store call that failed, in the words of the store. -/
structure StoreFault where
  text : String
  deriving DecidableEq, Repr

/-- Why an operation fails. An unknown username and a wrong password are one cause, and so are a
key that is missing, deleted or another account's. -/
inductive Failure where
  | invalidCredentials
  | usernameUnavailable
  | resetTokenNotFound
  | resetTokenExpired
  | invalidAccessToken
  | keyNotFound (id : RowId)
  | quotaExceeded (limit : Int)
  | notFound (entity : Entity) (key : String)
  | invalid (reason : Invalid)
  | forbidden (reason : String)
  | store (fault : StoreFault)
  | internal (detail : String)
  deriving DecidableEq, Repr

/-- What is said of a failure in full. Clients are told less of a failure that is not theirs. -/
def Failure.message : Failure → String
  | .invalidCredentials => "Invalid username or password"
  | .usernameUnavailable => "Username is unavailable"
  | .resetTokenNotFound => "Password reset token not found"
  | .resetTokenExpired => "Password reset token has expired"
  | .invalidAccessToken => "Invalid or expired access token"
  | .keyNotFound id => "API key not found: " ++ intText id
  | .quotaExceeded limit => "API key limit of " ++ intText limit ++ " reached"
  | .notFound entity key => "Entity not found: " ++ entity.name ++ " " ++ key
  | .invalid reason => "Validation failed: " ++ reason.message
  | .forbidden reason => "Forbidden: " ++ reason
  | .store fault => fault.text
  | .internal detail => "Internal error: " ++ detail

end Latchkey
