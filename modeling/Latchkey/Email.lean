import Latchkey.Idna.Domain
import Latchkey.Net.Address

/-!
# Email addresses

The addresses that may be the name of an account: a local part and a domain around the last at
sign.
-/

namespace Latchkey.Email

open Text

/-- A letter of ASCII. -/
def isLetter (c : Char) : Bool :=
  ('a' ≤ c && c ≤ 'z') || ('A' ≤ c && c ≤ 'Z')

/-- A character of a local part: letters, digits and the marks that need no quotes. -/
def isLocalChar (c : Char) : Bool :=
  isLetter c || isDigit c || c ∈ ".!#$%&'*+/=?^_\x60\x7b|\x7d~-".toList

/-- The texts before and after the last at sign. -/
def split? (cs : List Char) : Option (List Char × List Char) :=
  match (pieces '@' cs).reverse with
  | domain :: last :: rest => some (glue '@' (last :: rest).reverse, domain)
  | _ => none

/-- A local part: not empty and of its characters alone. -/
def isLocal (cs : List Char) : Bool :=
  !cs.isEmpty && cs.all isLocalChar

/-- A label of a domain: up to sixty-three letters, digits and hyphens, with no hyphen at its
ends. -/
def isLabel (cs : List Char) : Bool :=
  1 ≤ cs.length && cs.length ≤ 63 && cs.all (fun c => isLetter c || isDigit c || c == '-') &&
    cs.head? != some '-' && cs.getLast? != some '-'

/-- One or more labels with points between them. -/
def isHostName (cs : List Char) : Bool :=
  (pieces '.' cs).all isLabel

/-- A character of an address in brackets. -/
def isLiteralChar (c : Char) : Bool :=
  (hexValue? c).isSome || c == ':' || c == '.'

/-- What the last brackets of a text hold, if it ends with them. -/
def literal? (cs : List Char) : Option (List Char) :=
  match cs.reverse with
  | ']' :: rest =>
    let inner := rest.takeWhile isLiteralChar
    match rest.drop inner.length with
    | '[' :: _ => if inner.isEmpty then none else some inner.reverse
    | _ => none
  | _ => none

/-- A domain in ASCII: a host name, or a text that ends with an address in brackets. -/
def isPlainDomain (cs : List Char) : Bool :=
  isHostName cs || ((literal? cs).bind Net.Address.ofChars?).isSome

/-- A local part of at most sixty-four characters and a domain of at most two hundred and
fifty-five, which may be written in other scripts if it has a form in ASCII. -/
def isValid (s : String) : Bool :=
  match split? s.toList with
  | none => false
  | some (user, domain) =>
    user.length ≤ 64 && domain.length ≤ 255 && isLocal user &&
      (isPlainDomain domain || (Idna.toAscii? domain).any isPlainDomain)

end Latchkey.Email
