/-!
# Partial updates

A field of an update either keeps the value it finds or sets one. Where a field may be empty,
setting it to nothing is another update than leaving it alone.
-/

namespace Latchkey

/-- What an update says about one field. -/
inductive Patch (α : Type) where
  | keep
  | set (v : α)
  deriving DecidableEq, Repr

namespace Patch

variable {α : Type}

/-- The value that the update sets, if it sets one. -/
def value? : Patch α → Option α
  | .keep => none
  | .set v => some v

/-- The value that the update sets, if it sets another than the current one. -/
def change? [DecidableEq α] (p : Patch α) (current : α) : Option α :=
  p.value?.filter (· ≠ current)

/-- The field after the update. -/
def apply (p : Patch α) (current : α) : α :=
  p.value?.getD current

end Patch

end Latchkey
