import Latchkey.Json.Forms

/-!
# Geo tables in JSON

A table is a list of objects, each with a network and what is known of its place. The array form of
records is not taken here, and members that nobody reads are still held in memory, so that they
must be keepable.
-/

namespace Latchkey

open Json

namespace GeoTable

/-- Arrays and objects are nested fewer times than this in a table. -/
def nestingLimit : Nat := 128

/-- One entry: its network, and the place among its other members. -/
def entryOfJson? : Json → Option (Net.Network × Place)
  | .object members => do
    let r ← Record.of? ("network" :: Place.fields) (.object members)
    let network ← r.required "network" fun v => (asText? v).bind Net.Network.ofString?
    let place ← Place.ofRecord? r
    return (network, place)
  | _ => none

/-- The table of a list of entries, if it can be kept in memory. -/
def ofJson? (v : Json) : Option GeoTable :=
  if v.isKeepable nestingLimit then (asList? entryOfJson? v).map .mk else none

/-- The table in a text. -/
def ofText (text : String) : Except Invalid GeoTable :=
  match (Json.ofString? text).bind ofJson? with
  | some table => .ok table
  | none => .error .geoTable

end GeoTable

end Latchkey
