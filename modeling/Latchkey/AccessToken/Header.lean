import Latchkey.Json.Record

/-!
# Headers of access tokens

A header names the algorithm that a token is signed with. Whatever else it says is not used, but has
to be well-formed: among it may be a public key.
-/

namespace Latchkey.AccessToken

open Json

/-- Arrays and objects in a member of a part are nested fewer times than this where the member is
kept in memory. -/
def nestingLimit : Nat := 127

/-- The algorithm that tokens are signed with here. -/
def signingAlgorithm : String := "HS256"

/-- The algorithms that a header may name. -/
def knownAlgorithms : List String :=
  [signingAlgorithm, "HS384", "HS512", "ES256", "ES384", "RS256", "RS384", "RS512", "PS256",
    "PS384", "PS512", "EdDSA"]

/-! ## Choices -/

/-- One of some names: as a text, or as the only member of an object, with nothing in it. -/
def choice? (names : List String) (isNothing : Json → Bool) (v : Json) : Option String := do
  let name ← match v with
    | .object [(name, w)] => if isNothing w then some name else none
    | v => asText? v
  if name ∈ names then some name else none

/-- The value is `null`. -/
def isNull : Json → Bool
  | .null => true
  | _ => false

/-- The value is `null` or an empty object. -/
def isVoid : Json → Bool
  | .null | .object [] => true
  | _ => false

/-! ## Public keys -/

/-- The algorithms that a public key may be for. -/
def keyAlgorithms : List String :=
  knownAlgorithms ++ ["RSA1_5", "RSA-OAEP", "RSA-OAEP-256"]

/-- The curves that a public key may lie on. -/
def curves : List String := ["P-256", "P-384", "P-521", "Ed25519"]

/-- A kind of public keys: its name, whether its keys lie on a curve, and the texts in them. -/
structure KeyKind where
  name : String
  onCurve : Bool
  texts : List String

/-- The kinds that a header may hold a key of. -/
def keyKinds : List KeyKind :=
  [⟨"EC", true, ["x", "y"]⟩, ⟨"RSA", false, ["n", "e"]⟩, ⟨"oct", false, ["k"]⟩,
    ⟨"OKP", true, ["x"]⟩]

/-- The fields of a key of this kind. -/
def KeyKind.fields (k : KeyKind) : List String :=
  "kty" :: (if k.onCurve then ["crv"] else []) ++ k.texts

/-- The value is a key of this kind. -/
def KeyKind.includes (k : KeyKind) (v : Json) : Bool :=
  (Record.of? k.fields v).any fun r =>
    (r.required "kty" (choice? [k.name] isNull)).isSome &&
      (!k.onCurve || (r.required "crv" (choice? curves isNull)).isSome) &&
      k.texts.all fun f => (r.required f asText?).isSome

/-- What all kinds of keys may have in common is well-formed. -/
def isDescribed (r : Record) : Bool :=
  (["use", "kid", "x5u", "x5t", "x5t#S256"].all fun f => (r.optional f asText?).isSome) &&
    (["key_ops", "x5c"].all fun f => (r.optional f (asList? asText?)).isSome) &&
    (r.optional "alg" (choice? keyAlgorithms isVoid)).isSome

/-- The fields that all kinds of keys may have. -/
def keyFields : List String :=
  ["use", "key_ops", "alg", "kid", "x5u", "x5c", "x5t", "x5t#S256"]

/-- The object is a public key. All of it is kept in memory. -/
def isPublicKey : Json → Bool
  | .object members =>
    let v := Json.object members
    v.isKeepable nestingLimit && (Record.of? keyFields v).any isDescribed &&
      keyKinds.any (·.includes v)
  | _ => false

/-- A public key, of which nothing is used. -/
def publicKey? (v : Json) : Option Unit :=
  if isPublicKey v then some () else none

/-! ## The header as a whole -/

/-- The fields of a header. -/
def headerFields : List String :=
  ["typ", "alg", "cty", "jku", "jwk", "kid", "x5u", "x5c", "x5t", "x5t#S256"]

/-- The fields of a header that hold a text. -/
def headerTexts : List String :=
  ["typ", "cty", "jku", "kid", "x5u", "x5t", "x5t#S256"]

/-- The algorithm of a header all of whose fields are well-formed. -/
def headerAlgorithm? (v : Json) : Option String := do
  let r ← Record.of? headerFields v
  let name ← r.required "alg" (choice? knownAlgorithms isNull)
  if (headerTexts.all fun f => (r.optional f asText?).isSome) &&
      (r.optional "x5c" (asList? asText?)).isSome && (r.optional "jwk" publicKey?).isSome then
    some name
  else none

/-- The header of the tokens that are issued here. -/
def header : Json :=
  .object [("typ", .text "JWT"), ("alg", .text signingAlgorithm)]

end Latchkey.AccessToken
