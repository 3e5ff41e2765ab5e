import Latchkey.Text.Decimal
import Latchkey.Text.Hex
import Latchkey.Text.Pieces

/-!
# Internet addresses

Addresses of both families, their text, and their bits. Reading takes every spelling of an
address that its family allows; rendering gives one spelling to each address.
-/

namespace Latchkey.Net

open Text

/-- An address of the fourth version: four octets, the leftmost first. -/
structure Ipv4 where
  octets : List UInt8
  size_eq : octets.length = 4
  deriving DecidableEq

/-- An address of the sixth version: eight groups of sixteen bits, the leftmost first. -/
structure Ipv6 where
  groups : List UInt16
  size_eq : groups.length = 8
  deriving DecidableEq

/-- An address of either version. The two families are disjoint: an address of the sixth version
that maps one of the fourth is still of the sixth. -/
inductive Address where
  | v4 (ip : Ipv4)
  | v6 (ip : Ipv6)
  deriving DecidableEq

namespace Ipv4

/-- The address with these octets, if they are four. -/
def ofOctets? (octets : List UInt8) : Option Ipv4 :=
  if h : octets.length = 4 then some ⟨octets, h⟩ else none

/-- An octet: at most three digits, below 256, and no leading zero. -/
def octet? (cs : List Char) : Option UInt8 := do
  if cs.length > 3 then none
  else
    let n ← ofPlainDigits? cs
    if n < 256 then some (UInt8.ofNat n) else none

/-- Four octets with dots between them. -/
def ofChars? (cs : List Char) : Option Ipv4 := do
  let octets ← (pieces '.' cs).mapM octet?
  ofOctets? octets

/-- The dotted text of an address. -/
def toChars (ip : Ipv4) : List Char :=
  glue '.' (ip.octets.map fun o => digits o.toNat)

/-- The octets of an address, two to a group. -/
def groups (ip : Ipv4) : List UInt16 :=
  match ip.octets with
  | [a, b, c, d] =>
    [UInt16.ofNat (256 * a.toNat + b.toNat), UInt16.ofNat (256 * c.toNat + d.toNat)]
  | _ => []

/-- The thirty-two bits of an address, the most significant first. -/
def bits (ip : Ipv4) : List Bool :=
  ip.octets.flatMap fun o => (List.range 8).map fun i => o.toNat.testBit (7 - i)

end Ipv4

namespace Ipv6

/-- The address with these groups, if they are eight. -/
def ofGroups? (groups : List UInt16) : Option Ipv6 :=
  if h : groups.length = 8 then some ⟨groups, h⟩ else none

/-- A group: one to four hexadecimal digits of either case. -/
def group? (cs : List Char) : Option UInt16 :=
  if cs.length > 4 then none else (ofHex? cs).map UInt16.ofNat

/-- A run of groups with colons between them; nothing at all is the empty run. Where `dotted`
allows it, the last two groups may be written as an address of the fourth version. -/
def run? (dotted : Bool) (cs : List Char) : Option (List UInt16) :=
  if cs.isEmpty then some []
  else
    let ps := pieces ':' cs
    match ps.mapM group?, dotted with
    | some gs, _ => some gs
    | none, false => none
    | none, true => do
      let gs ← ps.dropLast.mapM group?
      let last ← Ipv4.ofChars? (ps.getLastD [])
      return gs ++ last.groups

/-- The text before and after the first double colon, if there is one. -/
def splitGap? : List Char → Option (List Char × List Char)
  | ':' :: ':' :: rest => some ([], rest)
  | [] => none
  | c :: cs => (splitGap? cs).map fun (head, tail) => (c :: head, tail)

/-- Eight groups, or fewer than eight around one double colon, which stands for the zero groups
that are missing. -/
def ofChars? (cs : List Char) : Option Ipv6 :=
  match splitGap? cs with
  | none => (run? true cs).bind ofGroups?
  | some (head, tail) => do
    let front ← run? false head
    let back ← run? true tail
    let filled := front.length + back.length
    if filled > 7 then none
    else ofGroups? (front ++ List.replicate (8 - filled) 0 ++ back)

/-- The zero groups that `gs` begins with. -/
def zeroRun (gs : List UInt16) : Nat :=
  (gs.takeWhile (· = 0)).length

/-- Where the longest run of zero groups begins and how long it is; the first of equals, and
length zero if no group is zero. -/
def longestGap (gs : List UInt16) : Nat × Nat :=
  (List.range gs.length).foldl
    (fun best i => if best.2 < zeroRun (gs.drop i) then (i, zeroRun (gs.drop i)) else best) (0, 0)

/-- Groups in hexadecimal with colons between them. -/
def runText (gs : List UInt16) : List Char :=
  glue ':' (gs.map fun g => hexDigits g.toNat)

/-- The address of the fourth version that this one maps: the last two groups behind five zero
groups and one of ones. -/
def mapped? (ip : Ipv6) : Option Ipv4 :=
  match ip.groups with
  | [0, 0, 0, 0, 0, 0xFFFF, g, h] =>
    Ipv4.ofOctets? [UInt8.ofNat (g.toNat / 256), UInt8.ofNat (g.toNat % 256),
      UInt8.ofNat (h.toNat / 256), UInt8.ofNat (h.toNat % 256)]
  | _ => none

/-- The text of an address: a mapped one ends in dotted form; otherwise the longest run of two or
more zero groups becomes a double colon. -/
def toChars (ip : Ipv6) : List Char :=
  match ip.mapped? with
  | some inner => [':', ':', 'f', 'f', 'f', 'f', ':'] ++ inner.toChars
  | none =>
    let (start, length) := longestGap ip.groups
    if length > 1 then
      runText (ip.groups.take start) ++ [':', ':'] ++ runText (ip.groups.drop (start + length))
    else runText ip.groups

/-- The hundred and twenty-eight bits of an address, the most significant first. -/
def bits (ip : Ipv6) : List Bool :=
  ip.groups.flatMap fun g => (List.range 16).map fun i => g.toNat.testBit (15 - i)

end Ipv6

namespace Address

/-- An address of the fourth version, else one of the sixth. -/
def ofChars? (cs : List Char) : Option Address :=
  match Ipv4.ofChars? cs with
  | some ip => some (.v4 ip)
  | none => (Ipv6.ofChars? cs).map .v6

/-- The address of a string. -/
def ofString? (s : String) : Option Address :=
  ofChars? s.toList

/-- The text of an address, as its family writes it. -/
def toChars : Address → List Char
  | .v4 ip => ip.toChars
  | .v6 ip => ip.toChars

/-- The string of an address. -/
def toString (a : Address) : String :=
  String.ofList a.toChars

/-- The bits of an address: thirty-two of the fourth version, or a hundred and twenty-eight. -/
def bits : Address → List Bool
  | .v4 ip => ip.bits
  | .v6 ip => ip.bits

/-- How many bits an address of this family has. -/
def width : Address → Nat
  | .v4 _ => 32
  | .v6 _ => 128

/-- Both addresses are of the same version. -/
def sameFamily : Address → Address → Bool
  | .v4 _, .v4 _ => true
  | .v6 _, .v6 _ => true
  | _, _ => false

end Address

end Latchkey.Net
