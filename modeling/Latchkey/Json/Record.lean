import Latchkey.Json.Writer
import Latchkey.Text.Decimal

/-!
# Records in JSON

A record is written as an object with its fields as members, in any order and among members that
nobody reads; or as an array of its fields in their fixed order. `Record.of?` brings both to one
view, and the ways to read a field say what its absence means.
-/

namespace Latchkey.Json

open Text

/-- What a JSON value supplies for the fields of a record. -/
structure Record where
  /-- The fields came by name, not by position. -/
  named : Bool
  supplied : List (String × Json)

namespace Record

/-- No field of the record is given twice. -/
def distinct (fields : List String) (members : List (String × Json)) : Bool :=
  fields.all fun f => (members.filter fun m => m.1 == f).length ≤ 1

/-- The record with these fields that a value is. An object may hold other members, even twice;
an array may leave off fields at its end but not go on after the last. -/
def of? (fields : List String) : Json → Option Record
  | .object members =>
    if distinct fields members then some ⟨true, members⟩ else none
  | .array items =>
    if items.length ≤ fields.length then some ⟨false, fields.zip items⟩ else none
  | _ => none

/-- The value of a field, if it is there. -/
def get? (r : Record) (field : String) : Option Json :=
  r.supplied.lookup field

/-- A field that must be there. -/
def required {α : Type} (r : Record) (field : String) (read : Json → Option α) : Option α :=
  (r.get? field).bind read

/-- A field whose absence means a fixed value. -/
def orElse {α : Type} (r : Record) (field : String) (read : Json → Option α) (absent : α) :
    Option α :=
  match r.get? field with
  | none => some absent
  | some v => read v

/-- Nothing for `null`, else what is read. -/
def nullable {α : Type} (read : Json → Option α) : Json → Option (Option α)
  | .null => some none
  | v => (read v).map some

/-- A field that may be `null`, and may be left out of an object but not of an array. -/
def optional {α : Type} (r : Record) (field : String) (read : Json → Option α) :
    Option (Option α) :=
  match r.get? field with
  | none => if r.named then some none else none
  | some v => nullable read v

/-- A field that may be `null` or left out. -/
def omissible {α : Type} (r : Record) (field : String) (read : Json → Option α) :
    Option (Option α) :=
  r.orElse field (nullable read) none

end Record

/-! ## Plain values -/

/-- A truth value. -/
def asBool? : Json → Option Bool
  | .bool b => some b
  | _ => none

/-- A text. -/
def asText? : Json → Option String
  | .text s => some s
  | _ => none

/-- An integer of a signed 64-bit word, written without fraction and exponent. -/
def asWord? : Json → Option Int
  | .number (.integer i) => if fitsWord i then some i else none
  | _ => none

/-- An array all of whose items are read. -/
def asList? {α : Type} (read : Json → Option α) : Json → Option (List α)
  | .array items => items.mapM read
  | _ => none

end Latchkey.Json
