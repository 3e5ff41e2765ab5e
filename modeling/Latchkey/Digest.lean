import Latchkey.Crypto.Argon2
import Latchkey.Failure
import Latchkey.Text.Base64
import Latchkey.Text.Bytes

/-!
# Digests of secrets

A secret is kept as a digest in the PHC text format: the name of the function, its version and
costs, the salt and the output, each behind a dollar sign. A digest is checked under its own costs,
whatever new digests are made with. `Hasher` is what the services know of all this.
-/

namespace Latchkey

open Text

/-- What makes digests and checks secrets against them. Both may fail. -/
structure Hasher where
  digest : (salt : Vector UInt8 16) → (secret : String) → Except Failure String
  verify : (secret digest : String) → Except Failure Bool

/-! ## The text format -/

/-- The fields of a digest. Salt and parameters are kept as they are written. -/
structure Digest where
  algorithm : List Char
  version : Option Nat
  params : List (List Char × List Char)
  salt : Option (List Char)
  output : Option (List UInt8)
  deriving DecidableEq

namespace Digest

/-- A small letter of ASCII. -/
def isLowerAlpha (c : Char) : Bool := 'a' ≤ c && c ≤ 'z'

/-- A capital letter of ASCII. -/
def isUpperAlpha (c : Char) : Bool := 'A' ≤ c && c ≤ 'Z'

/-- A name: one to thirty-two small letters, digits and hyphens. -/
def isName (cs : List Char) : Bool :=
  1 ≤ cs.length && cs.length ≤ 32 && cs.all fun c => isLowerAlpha c || isDigit c || c == '-'

/-- A value: at most sixty-four letters, digits and the marks of Base64, points and hyphens. -/
def isValue (cs : List Char) : Bool :=
  cs.length ≤ 64 && cs.all fun c =>
    isLowerAlpha c || isUpperAlpha c || isDigit c || c == '/' || c == '+' || c == '.' || c == '-'

/-- A number below two to the thirty-second without leading zeros. -/
def number? (cs : List Char) : Option Nat := do
  let n ← ofPlainDigits? cs
  if n < 0x100000000 then some n else none

/-- A parameter: a name and a value around one equals sign. -/
def param? (cs : List Char) : Option (List Char × List Char) :=
  match pieces '=' cs with
  | [name, value] => if isName name && isValue value then some (name, value) else none
  | _ => none

/-- The version, if the first field states one. -/
def version? : List (List Char) → Option (Option Nat × List (List Char))
  | [] => some (none, [])
  | field :: rest =>
    match dropStart? ['v', '='] field with
    | none => some (none, field :: rest)
    | some value =>
      if ',' ∈ field then some (none, field :: rest)
      else (number? value).map fun n => (some n, rest)

/-- The parameters, if the first field has an equals sign. -/
def params? : List (List Char) → Option (List (List Char × List Char) × List (List Char))
  | [] => some ([], [])
  | field :: rest =>
    if '=' ∉ field then some ([], field :: rest)
    else if field.length > 127 then none
    else ((pieces ',' field).mapM param?).map (·, rest)

/-- The salt, if a field is left: four characters of a value at least. -/
def salt? : List (List Char) → Option (Option (List Char) × List (List Char))
  | [] => some (none, [])
  | field :: rest =>
    if 4 ≤ field.length && isValue field then some (some field, rest) else none

/-- The output, if a field is left: ten to sixty-four bytes. -/
def output? : List (List Char) → Option (Option (List UInt8) × List (List Char))
  | [] => some (none, [])
  | field :: rest => do
    let bs ← Base64.decode? Base64.standard field
    if 10 ≤ bs.length && bs.length ≤ 64 then some (some bs, rest) else none

/-- The digest of a text. -/
def ofChars? (cs : List Char) : Option Digest :=
  match pieces '$' cs with
  | [] :: algorithm :: fields =>
    if isName algorithm then do
      let (version, fields) ← version? fields
      let (params, fields) ← params? fields
      let (salt, fields) ← salt? fields
      let (output, fields) ← output? fields
      if fields.isEmpty then some { algorithm, version, params, salt, output } else none
    else none
  | _ => none

/-- The digest of a string. -/
def ofString? (s : String) : Option Digest :=
  ofChars? s.toList

/-- The fields that a digest is written with, in their order. -/
def fields (d : Digest) : List (List Char) :=
  let version := d.version.toList.map fun n => 'v' :: '=' :: digits n
  let params :=
    if d.params.isEmpty then []
    else [glue ',' (d.params.map fun (name, value) => name ++ '=' :: value)]
  let output := d.output.toList.map (Base64.encode Base64.standard)
  d.algorithm :: version ++ params ++ d.salt.toList ++ output

/-- The text of a digest: each field behind a dollar sign. -/
def toChars (d : Digest) : List Char :=
  d.fields.flatMap ('$' :: ·)

/-- The string of a digest. -/
def toString (d : Digest) : String :=
  String.ofList d.toChars

end Digest

/-! ## Hashing with Argon2 -/

namespace Argon2

open Crypto.Argon2

/-- The name of a variant in digests. -/
def variantName : Variant → String
  | .d => "argon2d"
  | .i => "argon2i"
  | .id => "argon2id"

/-- The variant that a digest names as its algorithm. -/
def variant? (name : List Char) : Option Variant :=
  [Variant.d, .i, .id].find? fun v => (variantName v).toList = name

/-- The version that a digest states; none stated is the newer one. -/
def version? : Option Nat → Option Version
  | none => some .v19
  | some n => [Version.v16, .v19].find? fun v => v.code = n

/-- How much work new digests cost: memory in kibibytes, passes and lanes. -/
structure Cost where
  memory : Nat
  passes : Nat
  lanes : Nat
  deriving DecidableEq, Repr

/-- The cost where nothing else is said, also for what a digest does not state. -/
def Cost.default : Cost := ⟨19456, 2, 1⟩

/-- The parameters of a hash with this cost. -/
def Cost.params (c : Cost) (outputLength : Nat) : Params :=
  ⟨c.memory, c.passes, c.lanes, outputLength⟩

/-- The length of new digests in bytes. -/
def outputLength : Nat := 32

/-- What the parameters of a digest say: its cost and the data that belongs to it. -/
structure Setting where
  cost : Cost
  data : List UInt8

/-- Bytes in a value, at most a number of them. -/
def bytesUpTo? (limit : Nat) (value : List Char) : Option (List UInt8) := do
  let bs ← Text.Base64.decode? Text.Base64.standard value
  if bs.length ≤ limit then some bs else none

/-- Takes one parameter in. A repeated one counts as it was given last; the number of a key is
read and not used. -/
def Setting.admit? (s : Setting) (param : List Char × List Char) : Option Setting :=
  let (name, value) := param
  if name = "m".toList then
    (Digest.number? value).map fun n => { s with cost := { s.cost with memory := n } }
  else if name = "t".toList then
    (Digest.number? value).map fun n => { s with cost := { s.cost with passes := n } }
  else if name = "p".toList then
    (Digest.number? value).map fun n => { s with cost := { s.cost with lanes := n } }
  else if name = "keyid".toList then (bytesUpTo? 8 value).map fun _ => s
  else if name = "data".toList then (bytesUpTo? 32 value).map fun bs => { s with data := bs }
  else none

/-- All parameters of a digest. -/
def setting? (params : List (List Char × List Char)) : Option Setting :=
  params.foldlM Setting.admit? ⟨.default, []⟩

/-- The least number of bytes of a salt. -/
def minSalt : Nat := 8

/-- The output that a secret has under the fields of a digest, if they denote a function at all. -/
def recompute? (d : Digest) (salt : List Char) (outputLength : Nat) (secret : String) :
    Option (List UInt8) := do
  let setting ← setting? d.params
  let params := setting.cost.params outputLength
  let variant ← variant? d.algorithm
  let version ← version? d.version
  let salt ← Text.Base64.decode? Text.Base64.standard salt
  if params.isValid && minSalt ≤ salt.length then
    some (hash variant version params ⟨bytes secret, salt, setting.data⟩)
  else none

/-- Checks a secret against a digest. A digest without salt or output fits no secret. -/
def verify (secret digest : String) : Except Failure Bool :=
  match Digest.ofString? digest with
  | none => .error (.internal "Malformed secret digest")
  | some d =>
    match d.salt, d.output with
    | some salt, some output =>
      match recompute? d salt output.length secret with
      | none => .error (.internal "Secret verification error")
      | some found => .ok (output == found)
    | _, _ => .ok false

/-- The digest of a secret. -/
def digestOf (c : Cost) (salt : Vector UInt8 16) (secret : String) : Digest :=
  let salt := salt.toList
  { algorithm := (variantName .id).toList
    version := some Version.v19.code
    params := [("m".toList, digits c.memory), ("t".toList, digits c.passes),
      ("p".toList, digits c.lanes)]
    salt := some (Text.Base64.encode Text.Base64.standard salt)
    output := some (hash .id .v19 (c.params outputLength) ⟨bytes secret, salt, []⟩) }

/-- The hasher that makes digests of a given cost and checks digests of any. -/
def hasher (c : Cost) : Hasher where
  digest salt secret := .ok (digestOf c salt secret).toString
  verify := verify

end Argon2

end Latchkey
