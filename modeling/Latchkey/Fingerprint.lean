import Latchkey.Agent
import Latchkey.Geo
import Latchkey.Net.Socket
import Latchkey.Text.Blank

/-!
# Fingerprints of requests

Where a request came from and what sent it. Two addresses are read off a request: the one it is
fingerprinted under, which a client may choose, and the one that access is decided by, which only
a trusted proxy may report.
-/

namespace Latchkey

open Text

/-- What a request is recognised by. -/
structure Fingerprint where
  ip : String
  place : Place
  agent : Agent
  deriving DecidableEq

/-- Same place and same agent. The address is left out: one machine has many over time. -/
def Fingerprint.sameOrigin (a b : Fingerprint) : Bool :=
  a.place == b.place && a.agent == b.agent

/-- The parts of a request that tell who sent it: the peer of its connection as text, and two
headers, each only if it was sent and readable. -/
structure Caller where
  peer : Option String
  forwardedFor : Option String
  userAgent : Option String

namespace Caller

/-- The trimmed hops of a forwarding header, in the order of the header, without empty ones. -/
def hops (header : String) : List (List Char) :=
  ((pieces ',' header.toList).map trimChars).filter (!·.isEmpty)

/-- The first text of the forwarding header up to a comma, trimmed, unless it is empty. -/
def firstHop? (header : String) : Option (List Char) :=
  let hop := trimChars (before ',' header.toList)
  if hop.isEmpty then none else some hop

/-- The address text a request is fingerprinted under: the first hop, else the peer. -/
def clientText? (c : Caller) : Option (List Char) :=
  match c.forwardedFor.bind firstHop? with
  | some hop => some hop
  | none => c.peer.map fun p => trimChars p.toList

/-- Walks hops from the nearest to the farthest over trusted proxies. The first hop that is not
one of them is the client; a hop that is no address stops the walk without an answer, and if there
are only proxies the peer itself is the client. -/
def walk (trusted : Net.Address → Bool) (peer : Net.Address) : List (List Char) → Option Net.Address
  | [] => some peer
  | hop :: rest =>
    match Net.Address.ofHop? hop with
    | none => none
    | some ip => if trusted ip then walk trusted peer rest else some ip

/-- The client address that access is decided by: the peer, unless it is a trusted proxy, in which
case the forwarding header is followed from its right end. -/
def trustedAddress? (c : Caller) (proxies : List Net.Network) : Option Net.Address := do
  let trusted := fun ip => proxies.any (·.contains ip)
  let text ← c.peer
  let peer ← Net.Address.ofHop? (trimChars text.toList)
  if trusted peer then
    match c.forwardedFor with
    | none => some peer
    | some header => walk trusted peer (hops header).reverse
  else some peer

/-- The fingerprint of a request, if its address can be read and the table knows it. -/
def fingerprint? (c : Caller) (table : GeoTable) : Option Fingerprint := do
  let text ← c.clientText?
  let ip ← Net.Address.ofHop? text
  let place ← table.locate ip
  return ⟨ip.toString, place, Agent.ofUserAgent (c.userAgent.getD "")⟩

end Caller

end Latchkey
