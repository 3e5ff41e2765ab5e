import Mathlib.Data.List.Nodup
import Latchkey.Store.Tables

/-!
# Replacing a row

A store changes a row by putting another in the place of the first that fits. What is there
afterwards, and what of a table does not notice.
-/

namespace Latchkey

variable {α β : Type} {p q : α → Bool} {f : α → β} {x y : α} {xs : List α}

theorem mem_replaceFirst (h : x ∈ replaceFirst p y xs) : x = y ∨ x ∈ xs := by
  induction xs with
  | nil => cases h
  | cons z zs ih =>
    unfold replaceFirst at h
    split at h
    · exact (List.mem_cons.1 h).imp_right (List.mem_cons_of_mem z)
    · rcases List.mem_cons.1 h with rfl | h
      · exact .inr List.mem_cons_self
      · exact (ih h).imp_right (List.mem_cons_of_mem z)

theorem mem_replaceFirst_self (h : xs.any p = true) : y ∈ replaceFirst p y xs := by
  induction xs with
  | nil => cases h
  | cons x xs ih =>
    unfold replaceFirst
    split
    · exact List.mem_cons_self
    · next hx =>
      rw [List.any_cons, Bool.eq_false_iff.2 hx, Bool.false_or] at h
      exact List.mem_cons_of_mem _ (ih h)

/-- The first member of a kind is replaced where it stands. -/
theorem replaceFirst_append_cons {front back : List α} (hfront : ∀ z ∈ front, p z = false)
    (hx : p x = true) : replaceFirst p y (front ++ x :: back) = front ++ y :: back := by
  induction front with
  | nil => rw [List.nil_append, replaceFirst, if_pos hx, List.nil_append]
  | cons z front ih =>
    have hz := hfront z List.mem_cons_self
    have hrest := ih fun w hw => hfront w (List.mem_cons_of_mem z hw)
    rw [List.cons_append, replaceFirst, hz, if_neg Bool.false_ne_true, hrest, List.cons_append]

/-- What replaces the first member of a kind, and is of that kind itself, is the first then. -/
theorem find?_replaceFirst (hx : xs.find? p = some x) (hy : p y = true) :
    (replaceFirst p y xs).find? p = some y := by
  induction xs with
  | nil => cases hx
  | cons z zs ih =>
    rw [replaceFirst]
    cases hz : p z with
    | true => simp [hy]
    | false =>
      rw [List.find?_cons, hz] at hx
      simp [hz, ih hx]

/-- An image that all members of the kind share does not notice. -/
theorem map_replaceFirst (h : ∀ x, p x = true → f x = f y) :
    (replaceFirst p y xs).map f = xs.map f := by
  induction xs with
  | nil => rfl
  | cons x xs ih =>
    unfold replaceFirst
    split
    · next hx => rw [List.map_cons, List.map_cons, h x hx]
    · rw [List.map_cons, List.map_cons, ih]

theorem any_replaceFirst (h : ∀ x, q x = true → p x = p y) :
    (replaceFirst q y xs).any p = xs.any p := by
  have hmap : (replaceFirst q y xs).map p = xs.map p := map_replaceFirst h
  have hany (xs : List α) : xs.any p = (xs.map p).any id := by rw [List.any_map, Function.id_comp]
  rw [hany, hmap, hany]

/-- Members that are kept may be replaced before or after the others are dropped. -/
theorem filter_replaceFirst_of_pos (h : ∀ x, q x = true → p x = true) (hy : p y = true) :
    (replaceFirst q y xs).filter p = replaceFirst q y (xs.filter p) := by
  induction xs with
  | nil => rfl
  | cons x xs ih =>
    cases hq : q x with
    | true => simp [replaceFirst, hq, h x hq, hy]
    | false => cases hp : p x <;> simp [replaceFirst, hq, hp, ih]

/-- Members that are dropped may be replaced by others that are. -/
theorem filter_replaceFirst_of_neg (h : ∀ x, q x = true → p x = false) (hy : p y = false) :
    (replaceFirst q y xs).filter p = xs.filter p := by
  induction xs with
  | nil => rfl
  | cons x xs ih =>
    cases hq : q x with
    | true => simp [replaceFirst, hq, h x hq, hy]
    | false => cases hp : p x <;> simp [replaceFirst, hq, hp, ih]

/-- Where no two members have the same image, replacing the first one of a kind replaces those with
its image. -/
theorem replaceFirst_eq_map [DecidableEq β] (y : α) (hnodup : (xs.map f).Nodup)
    (hfind : xs.find? p = some x) (hp : ∀ z, p z = true → f z = f x) :
    replaceFirst p y xs = xs.map fun z => if f z = f x then y else z := by
  induction xs with
  | nil => cases hfind
  | cons z zs ih =>
    rw [List.map_cons, List.nodup_cons] at hnodup
    rw [replaceFirst, List.map_cons]
    cases hz : p z with
    | true =>
      have hrest : zs.map (fun w => if f w = f x then y else w) = zs := by
        refine (List.map_congr_left fun w hw => if_neg ?_).trans (List.map_id' zs)
        intro hw'
        exact hnodup.1 (List.mem_map.2 ⟨w, hw, hw'.trans (hp z hz).symm⟩)
      rw [if_pos (hp z hz), hrest]
      rfl
    | false =>
      rw [List.find?_cons, hz] at hfind
      have hne : f z ≠ f x := fun h =>
        hnodup.1 (h ▸ List.mem_map.2 ⟨x, List.mem_of_find?_eq_some hfind, rfl⟩)
      rw [if_neg hne, ih hnodup.2 hfind]
      rfl

end Latchkey
