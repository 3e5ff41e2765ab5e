import Latchkey.Json.Token

/-!
# Reading JSON

The tokens of a text drive a machine that keeps the arrays and objects still open on a stack. A
text is read if the machine has exactly one value in its hands at the end. Nesting has no limit. An
object with a member whose name denotes no text is itself broken.
-/

namespace Latchkey.Json

open Text

/-- The members of an object so far, in reverse; nothing once one of them has a broken name. -/
abbrev Members := Option (List (String × Json))

namespace Members

/-- One more member. -/
def add (ms : Members) (name : String) (v : Json) : Members :=
  ms.map ((name, v) :: ·)

/-- The object with these members. -/
def close : Members → Json
  | some ms => .object ms.reverse
  | none => .broken false

end Members

/-- An array or object that is still open; what it holds so far is kept in reverse. -/
inductive Frame where
  | array (items : List Json)
  | object (members : Members) (name : String)

/-- What the machine waits for. -/
inductive Reader where
  /-- A value; `mayClose` right behind the bracket that opens an array. -/
  | value (mayClose : Bool) (stack : List Frame)
  /-- The name of a member; `mayClose` right behind the brace that opens an object. -/
  | name (mayClose : Bool) (members : Members) (stack : List Frame)
  /-- The colon behind a member's name. -/
  | colon (members : Members) (name : String) (stack : List Frame)
  /-- A comma or a closing bracket, or the end: a value is complete. -/
  | next (v : Json) (stack : List Frame)

namespace Reader

/-- The value of a token that is one by itself. -/
def scalar? : Token → Option Json
  | .null => some .null
  | .bool b => some (.bool b)
  | .number n => some (.number n)
  | .text s => some (.text s)
  | .broken passed => some (.broken passed)
  | _ => none

/-- What the machine does at a token. -/
def step : Reader → Token → Option Reader
  | .value _ stack, .openArray => some (.value true (.array [] :: stack))
  | .value _ stack, .openObject => some (.name true (some []) stack)
  | .value true (.array items :: stack), .closeArray => some (.next (.array items.reverse) stack)
  | .value _ stack, t => (scalar? t).map (.next · stack)
  | .name _ members stack, .text s => some (.colon members s stack)
  | .name _ _ stack, .broken _ => some (.colon none "" stack)
  | .name true members stack, .closeObject => some (.next members.close stack)
  | .name _ _ _, _ => none
  | .colon members s stack, .colon => some (.value false (.object members s :: stack))
  | .colon _ _ _, _ => none
  | .next v (.array items :: stack), .comma => some (.value false (.array (v :: items) :: stack))
  | .next v (.array items :: stack), .closeArray =>
    some (.next (.array (v :: items).reverse) stack)
  | .next v (.object members s :: stack), .comma => some (.name false (members.add s v) stack)
  | .next v (.object members s :: stack), .closeObject =>
    some (.next (members.add s v).close stack)
  | .next _ _, _ => none

/-- The machine over a sequence of tokens. -/
def run : Reader → List Token → Option Reader
  | r, [] => some r
  | r, t :: ts => (r.step t).bind (run · ts)

theorem run_append (r : Reader) (ts us : List Token) :
    r.run (ts ++ us) = (r.run ts).bind (run · us) := by
  induction ts generalizing r with
  | nil => rfl
  | cons t ts ih =>
    simp only [List.cons_append, run]
    cases r.step t with
    | none => rfl
    | some s => exact ih s

end Reader

/-- The value of a sequence of tokens. -/
def ofTokens? (ts : List Token) : Option Json :=
  match (Reader.value false []).run ts with
  | some (.next v []) => some v
  | _ => none

/-- The value of a sequence of letters. -/
def ofLetters? (ls : List Letter) : Option Json :=
  (Token.all? ls).bind ofTokens?

/-- The value of a JSON text. -/
def ofString? (s : String) : Option Json :=
  ofLetters? (lettersOf s.toList)

/-- The value of a JSON text in bytes. -/
def ofBytes? (bs : List UInt8) : Option Json :=
  ofLetters? (letters bs)

theorem ofBytes?_bytes (s : String) : ofBytes? (bytes s) = ofString? s := by
  simp [ofBytes?, ofString?, letters_bytes]

end Latchkey.Json
