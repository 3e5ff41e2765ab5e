/-!
# JSON values

A JSON value as its text gives it: members keep their order and may repeat, and a number written
without fraction and exponent is told apart from one that is not.

A value may stand where nobody knows what it is for. A reader that keeps it in memory all the same
needs texts that denote something, numbers that fit a double, and nesting below a limit; otherwise
it gives up, and what follows can only be read if it has come to the end of the value by then.
-/

namespace Latchkey

/-- A number: an integer, or one written with a fraction or an exponent, which is
`significand * 10 ^ (exponent - places)` with `places` digits behind the point. Minus zero counts as
the latter. -/
inductive Json.Number where
  | integer (i : Int)
  | real (significand : Int) (places : Nat) (exponent : Int)
  deriving DecidableEq, Repr

/-- A JSON value. `broken` is a string that denotes no text, or an object with such a string for a
name: it may stand where nobody reads it. `passed` if whoever tries to read it comes to its end. -/
inductive Json where
  | null
  | bool (b : Bool)
  | number (n : Json.Number)
  | text (s : String)
  | broken (passed : Bool)
  | array (items : List Json)
  | object (members : List (String × Json))
  deriving Repr

namespace Json

/-- An integer as a value. -/
def int (i : Int) : Json := .number (.integer i)

/-- A text or `null`. -/
def optionalText : Option String → Json
  | none => .null
  | some s => .text s

/-- The first member of this name in an object. -/
def member? (name : String) : Json → Option Json
  | .object members => members.lookup name
  | _ => none

/-! ## Numbers as doubles

The first digits of a number count, as many as fit a word of 64 bits; they and the power of ten of
the digits that are left are rounded to doubles on their own before they are multiplied. -/

namespace Number

/-- The number with fifty-three binary digits that is nearest, the even one of two. -/
def rounded (n : Nat) : Nat :=
  let unit := Nat.pow 2 (n.log2 - 52)
  let count := n / unit
  let rest := 2 * (n % unit)
  (if unit < rest || (unit == rest && count % 2 == 1) then count + 1 else count) * unit

/-- The first digits of a number, as many as fit a word of 64 bits, and how many are left. -/
def leading (n : Nat) : Nat × Nat :=
  if n < 0x10000000000000000 then (n, 0)
  else
    let (digits, left) := leading (n / 10)
    (digits, left + 1)
termination_by n
decreasing_by omega

/-- Halfway between the greatest double and the next power of two: from here on a number is too
great for a double. -/
def bound : Nat := Nat.pow 2 1024 - Nat.pow 2 970

/-- The greatest power of ten that is a double. -/
def maxPower : Nat := 308

/-- A number of this size and power of ten fits a double. -/
def fits (size : Nat) (power : Int) : Bool :=
  let (digits, left) := leading size
  let power := power + left
  digits == 0 || power ≤ 0 ||
    (power ≤ maxPower && rounded digits * rounded (Nat.pow 10 power.toNat) < bound)

/-- The number fits a double. -/
def isFinite : Number → Bool
  | .integer i => fits i.natAbs 0
  | .real s places e => fits s.natAbs (e - places)

/-- All digits of a number that is too great are looked at, unless its exponent is beyond a word of
32 bits before its last digit. -/
def isPassed : Number → Bool
  | .integer _ => true
  | .real _ _ e => e / 10 < 0x80000000

end Number

/-! ## Keeping a value -/

/-- How reading a value ends that is to be kept in memory. -/
inductive Reading where
  | kept
  /-- Given up at the end of the value. -/
  | passed
  /-- Given up inside the value. -/
  | stuck
  deriving DecidableEq, Repr

/-- Given up at the end of the value, or inside it. -/
def Reading.givenUp (passed : Bool) : Reading :=
  if passed then .passed else .stuck

mutual

/-- How reading a value ends when it may be nested fewer times than a limit. What is given up at the
end of the last part of a value is given up at the end of the value. -/
def reading (limit : Nat) : Json → Reading
  | .broken passed => .givenUp passed
  | .number n => if n.isFinite then .kept else .givenUp n.isPassed
  | .array items => if limit ≤ 1 then .stuck else itemsReading (limit - 1) items
  | .object members => if limit ≤ 1 then .stuck else membersReading (limit - 1) members
  | .null | .bool _ | .text _ => .kept

/-- How reading the items of an array ends. -/
def itemsReading (limit : Nat) : List Json → Reading
  | [] => .kept
  | v :: vs =>
    match v.reading limit with
    | .kept => itemsReading limit vs
    | .passed => .givenUp vs.isEmpty
    | .stuck => .stuck

/-- How reading the members of an object ends. Names are always read. -/
def membersReading (limit : Nat) : List (String × Json) → Reading
  | [] => .kept
  | (_, v) :: ms =>
    match v.reading limit with
    | .kept => membersReading limit ms
    | .passed => .givenUp ms.isEmpty
    | .stuck => .stuck

end

/-- The value can be kept in memory. -/
def isKeepable (limit : Nat) (v : Json) : Bool :=
  v.reading limit == .kept

/-- Reading the value as a plain one comes to its end: arrays and objects must be empty. -/
def isPassable : Json → Bool
  | .array items => items.isEmpty
  | .object members => members.isEmpty
  | v => v.reading 1 != .stuck

end Json

end Latchkey
