import Latchkey.Text.Hex
import Latchkey.Text.Pieces

/-!
# Universally unique identifiers

A hundred and twenty-eight bits, written as thirty-two hexadecimal digits in five groups.
-/

namespace Latchkey

open Text

/-- An identifier. -/
structure Uuid where
  bits : BitVec 128
  deriving DecidableEq, Repr

namespace Uuid

/-- The sizes of the groups of digits. -/
def groupSizes : List Nat := [8, 4, 4, 4, 12]

/-- A text cut into runs of the given sizes. -/
def cut : List Nat → List Char → List (List Char)
  | [], _ => []
  | n :: ns, cs => cs.take n :: cut ns (cs.drop n)

/-- Lower-case digits, with hyphens between the groups. -/
def toChars (u : Uuid) : List Char :=
  glue '-' (cut groupSizes (fixedHex 32 u.bits.toNat))

/-- The string of an identifier. -/
def toString (u : Uuid) : String :=
  String.ofList u.toChars

/-- The identifier of thirty-two digits. -/
def ofDigits? (cs : List Char) : Option Uuid :=
  if cs.length = 32 then (ofHex? cs).map fun n => ⟨BitVec.ofNat 128 n⟩ else none

/-- The identifier of digits with hyphens between the groups. -/
def ofGroups? (cs : List Char) : Option Uuid :=
  let groups := pieces '-' cs
  if groups.map List.length = groupSizes then ofDigits? groups.flatten else none

/-- An identifier in one of its spellings: its digits alone, or with hyphens, and then also in
braces or as a URN. -/
def ofString? (s : String) : Option Uuid :=
  let cs := s.toList
  if cs.length = 32 then ofDigits? cs
  else
    match cs, dropStart? "urn:uuid:".toList cs with
    | _, some body => ofGroups? body
    | '\x7b' :: body, none =>
      if body.getLast? = some '\x7d' then ofGroups? body.dropLast else none
    | _, none => ofGroups? cs

/-- The random identifier with these bits: the four bits of the version and the two of the variant
are fixed, the rest are kept. -/
def random (source : BitVec 128) : Uuid :=
  let kept : BitVec 128 := 0xFFFFFFFFFFFF0FFF3FFFFFFFFFFFFFFF#128
  ⟨(source &&& kept) ||| 0x40008000000000000000#128⟩

/-- The version that the identifier states. -/
def version (u : Uuid) : Nat := (u.bits >>> 76).toNat % 16

end Uuid

end Latchkey
