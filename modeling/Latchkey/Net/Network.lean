import Latchkey.Net.Address

/-!
# Networks

An address with a number of leading bits that count. The remaining bits are kept: two networks
may differ in them and hold the same addresses.
-/

namespace Latchkey.Net

open Text

/-- A block of addresses: those of the family of `base` that share its first `length` bits. -/
structure Network where
  base : Address
  length : Nat
  deriving DecidableEq

namespace Network

/-- The address lies in the network. Addresses of the other family never do. -/
def contains (n : Network) (ip : Address) : Bool :=
  n.base.sameFamily ip && n.base.bits.take n.length == ip.bits.take n.length

/-- The number of leading ones of a netmask, if only zeros follow them. -/
def maskLength? (mask : Ipv4) : Option Nat :=
  let ones := mask.bits.takeWhile id
  if (mask.bits.dropWhile id).any id then none else some ones.length

/-- A prefix length: a number below 256 with an optional plus sign, at most the width. -/
def length? (width : Nat) (cs : List Char) : Option Nat := do
  let n ← unsigned? 256 cs
  if n ≤ width then some n else none

/-- The length a network of the fourth version may state: a netmask or a number. -/
def v4Length? (cs : List Char) : Option Nat :=
  match Ipv4.ofChars? cs with
  | some mask => maskLength? mask
  | none => length? 32 cs

/-- An address alone, or an address and a length behind one slash. -/
def ofChars? (cs : List Char) : Option Network :=
  match pieces '/' cs with
  | [ip] => do
    let base ← Address.ofChars? ip
    return ⟨base, base.width⟩
  | [ip, size] => do
    match ← Address.ofChars? ip with
    | .v4 base => return ⟨.v4 base, ← v4Length? size⟩
    | .v6 base => return ⟨.v6 base, ← length? 128 size⟩
  | _ => none

/-- The network of a string. -/
def ofString? (s : String) : Option Network :=
  ofChars? s.toList

/-- The kept address, a slash and the length. -/
def toString (n : Network) : String :=
  String.ofList (n.base.toChars ++ '/' :: digits n.length)

end Network

end Latchkey.Net
