/-!
# Decimal numbers

Numbers as runs of the ten ASCII digits. Reading takes leading zeros unless a format forbids
them, and never takes another script's digits.
-/

namespace Latchkey.Text

/-- One of the ten ASCII digits. -/
def isDigit (c : Char) : Bool :=
  '0' ≤ c && c ≤ '9'

/-- The decimal digits of a number, without leading zeros. -/
def digits (n : Nat) : List Char :=
  Nat.toDigits 10 n

/-- The number that one or more decimal digits denote. -/
def ofDigits? (cs : List Char) : Option Nat :=
  if cs.isEmpty then none
  else if cs.all isDigit then some (Nat.ofDigitChars 10 cs 0)
  else none

/-- The digits of a number written without a leading zero, except for zero itself. -/
def ofPlainDigits? (cs : List Char) : Option Nat :=
  if cs.head? = some '0' && cs.length > 1 then none else ofDigits? cs

/-- The decimal text of an integer: a minus sign only below zero. -/
def integerText (i : Int) : List Char :=
  match i with
  | .ofNat n => digits n
  | .negSucc n => '-' :: digits (n + 1)

/-- The integers that a signed 64-bit word holds. -/
def fitsWord (i : Int) : Bool :=
  -0x8000000000000000 ≤ i && i < 0x8000000000000000

/-- The signed 64-bit word that a sum or product is kept in: beyond the ends it wraps. -/
def wrapWord (i : Int) : Int :=
  Int.bmod i 0x10000000000000000

/-- A number below a bound, with an optional plus sign. -/
def unsigned? (bound : Nat) (cs : List Char) : Option Nat := do
  let body := match cs with
    | '+' :: rest => rest
    | _ => cs
  let n ← ofDigits? body
  if n < bound then some n else none

/-- An integer that fits a signed 64-bit word, with an optional sign. -/
def signedWord? (cs : List Char) : Option Int := do
  let i : Int ← match cs with
    | '+' :: rest => (ofDigits? rest).map Int.ofNat
    | '-' :: rest => (ofDigits? rest).map fun n => -(n : Int)
    | _ => (ofDigits? cs).map Int.ofNat
  if fitsWord i then some i else none

/-- A number padded with zeros on the left to a width. -/
def padded (width n : Nat) : List Char :=
  let ds := digits n
  List.replicate (width - ds.length) '0' ++ ds

end Latchkey.Text
