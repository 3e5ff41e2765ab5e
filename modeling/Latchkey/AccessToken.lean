import Latchkey.AccessToken.Header
import Latchkey.Crypto.Sha256
import Latchkey.Json.Reader
import Latchkey.Text.Base64
import Latchkey.Text.Bytes

/-!
# Access tokens

A token carries claims about an account and is signed with a secret: three parts of URL-safe Base64
with points between them, a header, the claims and the signature of both. A token is good until a
minute after it expires.
-/

namespace Latchkey

open Text Json

/-- What a token says: whose it is, what the account may do, and when it was issued and expires, in
seconds since 1970. -/
structure Claims where
  subject : String
  roles : List String
  expiresAt : Int
  issuedAt : Int
  tokenId : String
  deriving DecidableEq, Repr

namespace Claims

/-- The object of claims, under the names that tokens use. -/
def toJson (c : Claims) : Json :=
  .object [("sub", .text c.subject), ("roles", .array (c.roles.map .text)),
    ("exp", .int c.expiresAt), ("iat", .int c.issuedAt), ("jti", .text c.tokenId)]

/-- The claims of a value that has all five. -/
def ofJson? (v : Json) : Option Claims := do
  let r ← Record.of? ["sub", "roles", "exp", "iat", "jti"] v
  let subject ← r.required "sub" asText?
  let roles ← r.required "roles" (asList? asText?)
  let expiresAt ← r.required "exp" asWord?
  let issuedAt ← r.required "iat" asWord?
  let tokenId ← r.required "jti" asText?
  return { subject, roles, expiresAt, issuedAt, tokenId }

end Claims

namespace AccessToken

/-- Why a token is not accepted, in the order in which it is looked at. -/
inductive Fault where
  | parts
  | encoding
  | content
  | algorithm
  | signature
  | noExpiry
  | expired
  | audience
  deriving DecidableEq, Repr

/-! ## Issuing -/

/-- A part of a token: a value in Base64. -/
def part (v : Json) : List Char :=
  Base64.encode Base64.urlSafe (bytes v.toString)

/-- The signature of a message. -/
def signature (secret : String) (message : List Char) : List Char :=
  Base64.encode Base64.urlSafe (Crypto.Sha256.mac (bytes secret) (bytes (String.ofList message)))

/-- The token with these claims. -/
def issue (secret : String) (c : Claims) : String :=
  let message := part header ++ '.' :: part c.toJson
  String.ofList (message ++ '.' :: signature secret message)

/-! ## Checking -/

/-- Header, claims and signature, cut at the last two points. -/
def parts? (cs : List Char) : Option (List Char × List Char × List Char) :=
  match (pieces '.' cs).reverse with
  | sign :: claims :: first :: rest => some (glue '.' (first :: rest).reverse, claims, sign)
  | _ => none

/-- The value that a part encodes. -/
def value (part : List Char) : Except Fault Json :=
  match Base64.decode? Base64.urlSafe part with
  | none => .error .encoding
  | some bs =>
    match Json.ofBytes? bs with
    | none => .error .content
    | some v => .ok v

/-- How long after its expiry a token is still taken, in seconds. -/
def leeway : Int := 60

/-- A text or a list of texts. -/
def isAudience (v : Json) : Bool :=
  (asText? v).isSome || (asList? asText? v).isSome

/-- The fields of the claims that say when and for whom a token is good. -/
def validityFields : List String := ["exp", "nbf", "sub", "iss", "aud"]

/-- The claims are good at a time. They name no audience, because nobody here is one. An issuer, an
audience or an earliest time of no known kind does not count, but reading has to get past it. -/
def checkValidity (now : Int) (v : Json) : Except Fault Unit :=
  match Record.of? validityFields v with
  | none => .error .content
  | some r =>
    let endsWell := fun f => (r.get? f).all (·.reading nestingLimit != .stuck)
    if !((r.get? "nbf").all isPassable && endsWell "iss" && endsWell "aud") then .error .content
    else
      match (r.get? "exp").bind asWord? with
      | none => .error .noExpiry
      | some expiresAt =>
        if expiresAt < 0 then .error .noExpiry
        else if expiresAt < now - leeway then .error .expired
        else if (r.get? "aud").any isAudience then .error .audience
        else .ok ()

/-- The claims of a token that is good at a time. -/
def check (secret : String) (now : Int) (token : String) : Except Fault Claims :=
  match parts? token.toList with
  | none => .error .parts
  | some (head, body, sign) => do
    let header ← value head
    match headerAlgorithm? header with
    | none => .error .content
    | some name =>
      if name ≠ signingAlgorithm then .error .algorithm
      else if sign ≠ signature secret (head ++ '.' :: body) then .error .signature
      else
        let v ← value body
        match Claims.ofJson? v with
        | none => .error .content
        | some claims =>
          checkValidity now v
          return claims

end AccessToken

end Latchkey
