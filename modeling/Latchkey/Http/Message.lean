import Latchkey.Fingerprint
import Latchkey.Json.Basic
import Latchkey.Text.Bytes
import Latchkey.Text.Pieces

/-!
# Messages

Requests and responses as far as the service looks at them. The name of a header is written in any
case; of headers with one name the first counts. What a header holds are bytes, which a client may
choose as it likes: they are read as a text only where all of them are plain ASCII.
-/

namespace Latchkey.Http

/-- The value of a header. -/
abbrev FieldValue := List UInt8

/-- A header: its name and its value. -/
abbrev Field := String × FieldValue

/-- A header whose value is a text. -/
def field (name value : String) : Field :=
  (name, Text.bytes value)

/-- A request. Its target is a path, or names the host as well. The peer is known if the connection
tells it. -/
structure Message where
  method : String
  target : String
  headers : List Field
  peer : Option Net.Socket

/-- A response. An empty body is none. -/
structure Response where
  status : Nat
  headers : List Field
  body : Option Json

namespace Message

/-- The value of a header as it was sent. -/
def header? (m : Message) (name : String) : Option FieldValue :=
  (m.headers.find? fun h => h.1.toLower = name).map (·.2)

/-- A byte that a readable value may hold: printable ASCII or a tab. -/
def isReadable (b : UInt8) : Bool :=
  (0x20 ≤ b && b < 0x7F) || b == 0x09

/-- The text of a readable value. -/
def readable? (value : FieldValue) : Option String :=
  if value.all isReadable then some (String.ofList (value.map fun b => Char.ofNat b.toNat))
  else none

/-- The value of a header, if all of it is readable. -/
def text? (m : Message) (name : String) : Option String :=
  (m.header? name).bind readable?

/-- A character of the name of a scheme. -/
def isSchemeChar (c : Char) : Bool :=
  c.isAlphanum || c ∈ ['+', '-', '.']

/-- A target without scheme and host, if it names them. -/
def withoutHost (target : List Char) : List Char :=
  match Text.dropStart? "://".toList (target.dropWhile isSchemeChar) with
  | none => target
  | some rest => rest.dropWhile (· ∉ ['/', '?', '#'])

/-- The path without scheme, host, query and fragment. -/
def route (m : Message) : String :=
  String.ofList (Text.before '?' (Text.before '#' (withoutHost m.target.toList)))

/-- Who sent the request. -/
def caller (m : Message) : Caller where
  peer := m.peer.map Net.Socket.toString
  forwardedFor := m.text? "x-forwarded-for"
  userAgent := m.text? "user-agent"

end Message

end Latchkey.Http
