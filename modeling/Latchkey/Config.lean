import Latchkey.Net.Network
import Latchkey.Service
import Latchkey.Text.Blank

/-!
# Configuration

Settings come from the environment, each from one variable with a value to use where it is not set;
only the secret that tokens are signed with must be set. Variables are read in a fixed order, and
the first fault stops the start of the service.
-/

namespace Latchkey

open Text

/-- What variables are set to. -/
abbrev Environment := String → Option String

namespace Config

/-- The kinds of numbers that variables hold. -/
inductive NumberKind where
  | port
  | count
  | word
  deriving DecidableEq, Repr

/-- What messages call a kind of numbers. -/
def NumberKind.name : NumberKind → String
  | .port => "u16"
  | .count => "u64"
  | .word => "i64"

/-- Why the service does not start. -/
inductive Fault where
  | notANumber (name : String) (kind : NumberKind)
  | proxies
  | noSecret
  | emptySecret
  | origin (text : String)
  | wildcardOrigin
  deriving DecidableEq, Repr

/-- What is said of a fault when the service does not start. -/
def Fault.message : Fault → String
  | .notANumber name kind => name ++ " must be a valid " ++ kind.name
  | .proxies => "TRUSTED_PROXIES must be comma-separated CIDR ranges"
  | .noSecret => "JWT_SECRET must be set in the environment"
  | .emptySecret => "JWT_SECRET must not be empty"
  | .origin text => "Invalid CORS origin '" ++ text ++ "'"
  | .wildcardOrigin =>
    "Wildcard origin (\x60*\x60) cannot be passed to \x60AllowOrigin::list\x60. " ++
      "Use \x60AllowOrigin::any()\x60 instead"

/-- The items of a list with commas between them, trimmed, without empty ones. -/
def items (text : String) : List (List Char) :=
  ((pieces ',' text.toList).map trimChars).filter (!·.isEmpty)

variable (env : Environment)

/-- A number without a sign below a bound. -/
def unsigned (name : String) (kind : NumberKind) (bound absent : Nat) : Except Fault Nat :=
  match env name with
  | none => .ok absent
  | some text =>
    match unsigned? bound text.toList with
    | some n => .ok n
    | none => .error (.notANumber name kind)

/-- A number of a signed word. -/
def word (name : String) (absent : Int) : Except Fault Int :=
  match env name with
  | none => .ok absent
  | some text =>
    match signedWord? text.toList with
    | some i => .ok i
    | none => .error (.notANumber name .word)

/-- The networks of a list. -/
def networks : List (List Char) → Except Fault (List Net.Network)
  | [] => .ok []
  | item :: rest =>
    match Net.Network.ofChars? item with
    | none => .error .proxies
    | some n => (networks rest).map (n :: ·)

/-- How tokens are signed; the secret before the lifetime. -/
def tokenSettings : Except Fault TokenSettings := do
  let secret ← match env "JWT_SECRET" with
    | none => throw .noSecret
    | some secret => if secret.isEmpty then throw .emptySecret else pure secret
  let minutes ← word env "JWT_ACCESS_EXPIRY_MINS" 60
  return { secret, minutes }

/-- The rules of sessions; the lifetime of devices before that of tokens. -/
def sessionSettings : Except Fault SessionSettings := do
  let refreshDays ← word env "REFRESH_TOKEN_EXPIRY_DAYS" 30
  let tokens ← tokenSettings env
  return { tokens, refreshDays }

/-- How many keys an account may have. -/
def keyLimit : Except Fault Int :=
  word env "API_KEY_LIMIT" defaultKeyLimit

/-- Everything that is set. -/
structure Settings where
  host : String
  port : Nat
  origins : List String
  requestTimeout : Nat
  shutdownTimeout : Nat
  geoTablePath : Option String
  proxies : List Net.Network
  session : SessionSettings
  keyLimit : Int

/-- Reads all settings. -/
def settings : Except Fault Settings := do
  let host := (env "HOST").getD "0.0.0.0"
  let port ← unsigned env "PORT" .port 0x10000 3000
  let origins := items ((env "CORS_ORIGINS").getD "http://localhost:5173")
  let requestTimeout ← unsigned env "REQUEST_TIMEOUT_SECS" .count 0x10000000000000000 30
  let shutdownTimeout ← unsigned env "SHUTDOWN_TIMEOUT_SECS" .count 0x10000000000000000 30
  let geoTablePath := (env "GEO_TABLE_PATH").filter (!isBlankText ·)
  let proxies ← networks (items ((env "TRUSTED_PROXIES").getD ""))
  let session ← sessionSettings env
  let keyLimit ← keyLimit env
  return {
    host, port, origins := origins.map String.ofList, requestTimeout, shutdownTimeout,
    geoTablePath, proxies, session, keyLimit }

/-- A character that no header may hold. -/
def isControl (c : Char) : Bool :=
  (c.toNat < 0x20 && c != '\t') || c.toNat == 0x7F

/-- Origins that may be allowed: texts for a header, and none that stands for all others. -/
def checkOrigins (origins : List String) : Except Fault Unit :=
  match origins.find? (·.toList.any isControl) with
  | some origin => .error (.origin origin)
  | none => if "*" ∈ origins then .error .wildcardOrigin else .ok ()

end Config

end Latchkey
