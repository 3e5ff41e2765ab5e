import Latchkey.Net.Network

/-!
# Places of addresses

A table of networks and the places they lie in. An address lies where the longest network that
holds it says; of equally long ones the last counts.
-/

namespace Latchkey

/-- A place, as precisely as it is known. -/
structure Place where
  country : Option String
  subdivision : Option String
  city : Option String
  deriving DecidableEq

/-- Networks with their places, in the order of the table. -/
structure GeoTable where
  entries : List (Net.Network × Place)

namespace GeoTable

/-- The table that knows no address. -/
def empty : GeoTable := ⟨[]⟩

/-- The better of two entries for one address: the later, unless its network is shorter. -/
def longer (best : Option (Net.Network × Place)) (entry : Net.Network × Place) :
    Option (Net.Network × Place) :=
  match best with
  | none => some entry
  | some found => if entry.1.length < found.1.length then some found else some entry

/-- The place of an address, if any network of the table holds it. -/
def locate (t : GeoTable) (ip : Net.Address) : Option Place :=
  ((t.entries.filter fun e => e.1.contains ip).foldl longer none).map (·.2)

end GeoTable

end Latchkey
