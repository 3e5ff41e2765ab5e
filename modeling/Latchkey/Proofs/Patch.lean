import Latchkey.Patch

/-!
# Laws of partial updates

Setting a field twice is setting it once, and updates of which one keeps the field can be made in
either order. A field has changed if the update sets another value than it had.
-/

namespace Latchkey

/-- What is told of a value: nothing if it is as before, or else the new one. -/
def switched {α : Type} [DecidableEq α] (before after : α) : List α :=
  if before = after then [] else [after]

theorem switched_self {α : Type} [DecidableEq α] (x : α) : switched x x = [] :=
  if_pos rfl

namespace Patch

variable {α : Type}

/-- To make an update once more makes no difference. -/
theorem apply_apply (p : Patch α) (current : α) : p.apply (p.apply current) = p.apply current := by
  cases p <;> rfl

/-- Updates of which one keeps the field can be made in either order. -/
theorem apply_comm {p q : Patch α} (h : p = .keep ∨ q = .keep) (current : α) :
    q.apply (p.apply current) = p.apply (q.apply current) := by
  rcases h with rfl | rfl <;> rfl

variable [DecidableEq α]

/-- A field changes to the value that the update sets, unless it has that already. -/
theorem getD_change? (p : Patch α) (current : α) :
    (p.change? current).getD current = p.apply current := by
  cases p with
  | keep => rfl
  | set v =>
    rw [change?, value?, Option.filter_some]
    by_cases h : v = current
    · simp [h, apply, value?]
    · simp [h, apply, value?]

theorem change?_eq_some_iff {p : Patch α} {current v : α} :
    p.change? current = some v ↔ v = p.apply current ∧ v ≠ current := by
  rw [change?, Option.filter_eq_some_iff, decide_eq_true_eq]
  refine and_congr_left fun hne => ?_
  cases p with
  | keep => exact ⟨nofun, fun h => (hne h).elim⟩
  | set w => exact Option.some_inj.trans eq_comm

/-- What an update of one field does is told alike before and after an update of another. -/
theorem switched_apply {p q : Patch α} (h : p = .keep ∨ q = .keep) (current : α) :
    switched (p.apply current) (q.apply (p.apply current)) =
      switched current (q.apply current) := by
  rcases h with rfl | rfl
  · rfl
  · exact (switched_self _).trans (switched_self current).symm

theorem toList_change? (p : Patch α) (current : α) :
    (p.change? current).toList = switched current ((p.change? current).getD current) := by
  cases h : p.change? current with
  | none => exact (switched_self current).symm
  | some v =>
    have hne : v ≠ current := (change?_eq_some_iff.1 h).2
    exact (if_neg hne.symm).symm

end Patch

end Latchkey
