import Latchkey.Net.Address

/-!
# Socket addresses

An address with a port, as the peer of a connection is reported. An address of the sixth version
stands in brackets and may carry a scope.
-/

namespace Latchkey.Net

open Text

/-- One end of a connection. Scope zero is no scope. -/
inductive Socket where
  | v4 (ip : Ipv4) (port : UInt16)
  | v6 (ip : Ipv6) (scope : UInt32) (port : UInt16)
  deriving DecidableEq

namespace Socket

/-- A port: decimal digits with any number of leading zeros, below 65536. -/
def port? (cs : List Char) : Option UInt16 := do
  let n ← ofDigits? cs
  if n < 65536 then some (UInt16.ofNat n) else none

/-- A scope: decimal digits with any number of leading zeros, below two to the thirty-second. -/
def scope? (cs : List Char) : Option UInt32 := do
  let n ← ofDigits? cs
  if n < 4294967296 then some (UInt32.ofNat n) else none

/-- An address of the fourth version, a colon and a port. -/
def plain? (cs : List Char) : Option Socket :=
  match pieces ':' cs with
  | [ip, port] => do return .v4 (← Ipv4.ofChars? ip) (← port? port)
  | _ => none

/-- An address of the sixth version in brackets, with or without a scope, a colon and a port. -/
def bracketed? : List Char → Option Socket
  | '[' :: cs =>
    match pieces ']' cs with
    | [inner, ':' :: port] =>
      match pieces '%' inner with
      | [ip] => do return .v6 (← Ipv6.ofChars? ip) 0 (← port? port)
      | [ip, scope] => do return .v6 (← Ipv6.ofChars? ip) (← scope? scope) (← port? port)
      | _ => none
    | _ => none
  | _ => none

/-- A socket address of either version. -/
def ofChars? (cs : List Char) : Option Socket :=
  match plain? cs with
  | some socket => some socket
  | none => bracketed? cs

/-- The socket address of a string. -/
def ofString? (s : String) : Option Socket :=
  ofChars? s.toList

/-- The text of a socket address. Scope zero is not written. -/
def toChars : Socket → List Char
  | .v4 ip port => ip.toChars ++ ':' :: digits port.toNat
  | .v6 ip scope port =>
    let zone := if scope = 0 then [] else '%' :: digits scope.toNat
    '[' :: ip.toChars ++ zone ++ [']', ':'] ++ digits port.toNat

/-- The string of a socket address. -/
def toString (s : Socket) : String :=
  String.ofList s.toChars

/-- The address without port and scope. -/
def address : Socket → Address
  | .v4 ip _ => .v4 ip
  | .v6 ip _ _ => .v6 ip

end Socket

/-- The address in a text that is an address, or a socket address. -/
def Address.ofHop? (cs : List Char) : Option Address :=
  match Address.ofChars? cs with
  | some ip => some ip
  | none => (Socket.ofChars? cs).map Socket.address

end Latchkey.Net
