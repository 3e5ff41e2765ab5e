import Latchkey.Text.Decimal
import Latchkey.Time.Calendar

/-!
# Instants

Points of time in UTC to the nanosecond, and their text after RFC 3339. A leap second has no number
of its own: it is the second before it with a thousand million or more nanoseconds.
-/

namespace Latchkey

open Text

/-- A point of time: seconds since the start of 1970 and nanoseconds, which pass a thousand million
only inside a leap second. -/
structure Instant where
  seconds : Int
  nanos : Nat
  deriving DecidableEq, Repr

namespace Instant

/-- The first instant comes before the second. -/
def isBefore (a b : Instant) : Bool :=
  a.seconds < b.seconds || (a.seconds == b.seconds && a.nanos < b.nanos)

/-- The same moment some seconds later, or earlier if the number is negative. -/
def addSeconds (t : Instant) (n : Int) : Instant :=
  ⟨t.seconds + n, t.nanos⟩

/-- The same moment some hours later. -/
def addHours (t : Instant) (n : Int) : Instant :=
  t.addSeconds (n * 3600)

/-- The same moment some days later, each of twenty-four hours. -/
def addDays (t : Instant) (n : Int) : Instant :=
  t.addSeconds (n * 86400)

/-! ## Writing -/

/-- A year: four digits from 0 to 9999, a sign and at least four digits otherwise. -/
def yearText (year : Int) : List Char :=
  if 0 ≤ year && year ≤ 9999 then padded 4 year.toNat
  else (if year < 0 then '-' else '+') :: padded 4 year.natAbs

/-- A fraction of a second: nothing, or a point and three, six or nine digits, the fewest that lose
nothing. -/
def fractionText (nanos : Nat) : List Char :=
  if nanos = 0 then []
  else if nanos % 1000000 = 0 then '.' :: padded 3 (nanos / 1000000)
  else if nanos % 1000 = 0 then '.' :: padded 6 (nanos / 1000)
  else '.' :: padded 9 nanos

/-- The text of an instant, in UTC. A leap second is second sixty. -/
def toChars (t : Instant) : List Char :=
  let date := Time.Date.ofDayNumber (t.seconds / 86400)
  let ofDay := (t.seconds % 86400).toNat
  let leap := if t.nanos < 1000000000 then 0 else 1
  yearText date.year ++ '-' :: padded 2 date.month ++ '-' :: padded 2 date.day ++
    'T' :: padded 2 (ofDay / 3600) ++ ':' :: padded 2 (ofDay / 60 % 60) ++
    ':' :: padded 2 (ofDay % 60 + leap) ++ fractionText (t.nanos - leap * 1000000000) ++ ['Z']

/-- The string of an instant. -/
def toString (t : Instant) : String :=
  String.ofList t.toChars

/-! ## Reading -/

/-- Exactly `width` digits at the front of a text. -/
def fixedDigits? (width : Nat) (cs : List Char) : Option (Nat × List Char) := do
  if cs.length < width then none
  else
    let n ← ofDigits? (cs.take width)
    return (n, cs.drop width)

/-- One of these characters at the front of a text. -/
def mark? (marks : List Char) : List Char → Option (List Char)
  | c :: cs => if c ∈ marks then some cs else none
  | [] => none

/-- The nanoseconds of a fraction, if there is one; digits behind the ninth are dropped. -/
def fraction? : List Char → Option (Nat × List Char)
  | '.' :: cs =>
    let ds := cs.takeWhile isDigit
    if ds.isEmpty then none
    else
      let nine := (ds ++ List.replicate 9 '0').take 9
      (ofDigits? nine).map fun n => (n, cs.drop ds.length)
  | cs => some (0, cs)

/-- The signs of an offset to the west: a hyphen or the minus sign U+2212. -/
def minusSigns : List Char := ['-', '\u2212']

/-- The offset from UTC in seconds. -/
def offset? : List Char → Option (Int × List Char)
  | c :: cs =>
    if c = 'Z' || c = 'z' then some (0, cs)
    else if c = '+' || c ∈ minusSigns then do
      let (hours, cs) ← fixedDigits? 2 cs
      let cs ← mark? [':'] cs
      let (minutes, cs) ← fixedDigits? 2 cs
      if hours > 23 || minutes > 59 then none
      else
        let size : Int := (hours * 60 + minutes) * 60
        return (if c = '+' then size else -size, cs)
    else none
  | [] => none

/-- The instant of an RFC 3339 text. -/
def ofChars? (cs : List Char) : Option Instant := do
  let (year, cs) ← fixedDigits? 4 cs
  let cs ← mark? ['-'] cs
  let (month, cs) ← fixedDigits? 2 cs
  let cs ← mark? ['-'] cs
  let (day, cs) ← fixedDigits? 2 cs
  let cs ← mark? ['T', 't', ' '] cs
  let (hour, cs) ← fixedDigits? 2 cs
  let cs ← mark? [':'] cs
  let (minute, cs) ← fixedDigits? 2 cs
  let cs ← mark? [':'] cs
  let (second, cs) ← fixedDigits? 2 cs
  let (nanos, cs) ← fraction? cs
  let (offset, cs) ← offset? cs
  let date : Time.Date := ⟨year, month, day⟩
  if cs ≠ [] || !date.isValid || hour > 23 || minute > 59 || second > 60 then none
  else
    let leap := if second = 60 then 1 else 0
    let ofDay : Int := (hour * 60 + minute) * 60 + (second - leap : Nat)
    return ⟨date.dayNumber * 86400 + ofDay - offset, nanos + leap * 1000000000⟩

/-- The instant of a string. -/
def ofString? (s : String) : Option Instant :=
  ofChars? s.toList

end Instant

end Latchkey
