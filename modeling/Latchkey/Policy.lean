import Latchkey.Audit
import Latchkey.Net.Network
import Latchkey.Text.Blank

/-!
# Access policies

A key may be bound to ranges of addresses. The range of a policy tells it from the key's other
policies; an update gives the whole new list, and `Policy.reconcile` works out what it does to
the old one.
-/

namespace Latchkey

open Text

/-- A range of addresses, as it was written, and a name for it. -/
structure Policy where
  name : String
  range : String
  deriving DecidableEq, Repr

namespace Policy

/-- The network that the range denotes, if it denotes one. -/
def network? (p : Policy) : Option Net.Network :=
  Net.Network.ofString? p.range

/-! ## Lists that may be stored -/

/-- Why a list of policies is refused. -/
inductive Fault where
  | blankName
  | badRange (range : String)
  | duplicateRange (range : String)
  deriving DecidableEq, Repr

/-- What is said of a fault, with the range that is at fault. -/
def Fault.message : Fault → String
  | .blankName => "Access policy name must not be empty"
  | .badRange range => "Invalid access policy range: " ++ range
  | .duplicateRange range => "Duplicate access policy range: " ++ range

/-- The first fault of a list whose networks must also differ from those already seen. -/
def checkAfter (seen : List Net.Network) : List Policy → Except Fault Unit
  | [] => .ok ()
  | p :: ps =>
    if isBlankText p.name then .error .blankName
    else
      match p.network? with
      | none => .error (.badRange p.range)
      | some n =>
        if n ∈ seen then .error (.duplicateRange p.range) else checkAfter (seen ++ [n]) ps

/-- A list may be stored if every policy has a name and a range, and no two the same network. -/
def check (ps : List Policy) : Except Fault Unit :=
  checkAfter [] ps

/-! ## Replacing a list -/

/-- A list of policies with the events that led to it. -/
structure Change where
  policies : List Policy
  events : List KeyEvent
  deriving DecidableEq, Repr

/-- The list with a policy's name given to the first policy of the same range. -/
def rename (p : Policy) : List Policy → List Policy
  | [] => []
  | q :: qs => if q.range = p.range then { q with name := p.name } :: qs else q :: rename p qs

/-- The change with one more wanted policy taken in: it overwrites the name of the one with its
range, or joins at the end. -/
def Change.adopt (c : Change) (p : Policy) : Change :=
  if c.policies.any (·.range = p.range) then
    ⟨rename p c.policies, c.events ++ [.policy .updated p.range]⟩
  else ⟨c.policies ++ [p], c.events ++ [.policy .created p.range]⟩

/-- The change without the policies whose range is not wanted. -/
def Change.prune (c : Change) (desired : List Policy) : Change :=
  let wanted := fun (q : Policy) => desired.any (·.range = q.range)
  ⟨c.policies.filter wanted,
    c.events ++ (c.policies.filter (!wanted ·)).map fun q => .policy .deleted q.range⟩

/-- What replacing a list by another does: nothing if both hold the same policies in whatever order;
otherwise every wanted policy is taken in, in order, and the unwanted ones go. -/
def reconcile (current desired : List Policy) : Change :=
  if current.isPerm desired then ⟨current, []⟩
  else (desired.foldl Change.adopt ⟨current, []⟩).prune desired

/-! ## Enforcement -/

/-- An address is let in if there are no policies or one of their networks holds it. A range that
denotes no network holds nothing. -/
def permits (ps : List Policy) (ip : Net.Address) : Bool :=
  ps.isEmpty || (ps.filterMap network?).any (·.contains ip)

end Policy

end Latchkey
