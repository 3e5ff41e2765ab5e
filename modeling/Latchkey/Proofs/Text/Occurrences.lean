import Mathlib.Data.List.Infix
import Latchkey.Text.Pieces

/-!
# Where a pattern stands

The first place of a pattern in a text, told as a split of the text around it. When the middle of
a text is replaced, a pattern stays where it is as long as no place of it touches the middle.
-/

namespace Latchkey.Text

variable {α : Type} {pattern text front middle back u v : List α}

/-- A text is split around the first place of a pattern. -/
structure FirstAt (pattern text front back : List α) : Prop where
  split : text = front ++ pattern ++ back
  first : ∀ u v, text = u ++ pattern ++ v → front.length ≤ u.length

namespace FirstAt

theorem unique (h : FirstAt pattern text front back) (h' : FirstAt pattern text u v) :
    front = u ∧ back = v := by
  have hlength : front.length = u.length :=
    Nat.le_antisymm (h.first u v h'.split) (h'.first front back h.split)
  have heq : front ++ (pattern ++ back) = u ++ (pattern ++ v) := by
    rw [← List.append_assoc, ← List.append_assoc, ← h.split, ← h'.split]
  obtain ⟨hfront, hback⟩ := List.append_inj heq hlength
  exact ⟨hfront, List.append_cancel_left hback⟩

theorem isInfix (h : FirstAt pattern text front back) : pattern <:+: text :=
  ⟨front, back, h.split.symm⟩

theorem start (pattern back : List α) : FirstAt pattern (pattern ++ back) [] back :=
  ⟨rfl, fun _ _ _ => Nat.zero_le _⟩

theorem cons {c : α} (h : FirstAt pattern text front back) (hstart : ¬pattern <+: c :: text) :
    FirstAt pattern (c :: text) (c :: front) back where
  split := by rw [h.split]; rfl
  first := by
    intro u v heq
    cases u with
    | nil => exact (hstart ⟨v, heq.symm⟩).elim
    | cons d u => exact Nat.succ_le_succ (h.first u v (List.cons.inj heq).2)

/-- The first place stays the first one whatever is put behind. -/
theorem append (h : FirstAt pattern text front back) (further : List α) :
    FirstAt pattern (text ++ further) front (back ++ further) where
  split := by rw [h.split, List.append_assoc _ back]
  first := by
    intro u v heq
    by_contra hlt
    -- a place further to the left ends within the text
    have hend : (u ++ pattern).length ≤ text.length := by
      rw [h.split]
      simp only [List.length_append]
      omega
    obtain ⟨v', hv'⟩ : u ++ pattern <+: text :=
      List.prefix_of_prefix_length_le ⟨v, heq.symm⟩ (List.prefix_append text further) hend
    exact hlt (h.first u v' hv'.symm)

end FirstAt

/-! ## Offsets -/

/-- How much stands before the first place of a pattern, if there is one. -/
def offset? [BEq α] (pattern : List α) : List α → Option Nat
  | [] => if pattern.isEmpty then some 0 else none
  | c :: cs =>
    if pattern.isPrefixOf (c :: cs) then some 0 else (offset? pattern cs).map (· + 1)

section Offsets

variable [BEq α] [LawfulBEq α]

theorem offset?_eq_none_iff : offset? pattern text = none ↔ ¬pattern <:+: text := by
  induction text with
  | nil => simp [offset?]
  | cons c cs ih =>
    rw [offset?, List.infix_cons_iff, ← List.isPrefixOf_iff_prefix]
    split
    · next hstart => simp [hstart]
    · next hstart => simp [hstart, ih]

theorem exists_firstAt_of_offset? {i : Nat} (h : offset? pattern text = some i) :
    ∃ front back, FirstAt pattern text front back ∧ front.length = i := by
  induction text generalizing i with
  | nil =>
    cases pattern with
    | nil => exact ⟨[], [], .start [] [], Option.some.inj h⟩
    | cons c cs => cases h
  | cons c cs ih =>
    rw [offset?] at h
    split at h
    · next hstart =>
      obtain ⟨back, hback⟩ := List.isPrefixOf_iff_prefix.1 hstart
      exact ⟨[], back, hback ▸ .start pattern back, Option.some.inj h⟩
    · next hstart =>
      obtain ⟨j, hj, rfl⟩ := Option.map_eq_some_iff.1 h
      obtain ⟨front, back, hfirst, rfl⟩ := ih hj
      exact ⟨c :: front, back, hfirst.cons (mt List.isPrefixOf_iff_prefix.2 hstart), rfl⟩

theorem exists_firstAt (h : pattern <:+: text) :
    ∃ front back, FirstAt pattern text front back := by
  obtain ⟨i, hi⟩ := Option.ne_none_iff_exists'.1 fun hnone => offset?_eq_none_iff.1 hnone h
  obtain ⟨front, back, hfirst, -⟩ := exists_firstAt_of_offset? hi
  exact ⟨front, back, hfirst⟩

theorem FirstAt.offset?_eq (h : FirstAt pattern text front back) :
    offset? pattern text = some front.length := by
  obtain ⟨i, hi⟩ := Option.ne_none_iff_exists'.1 fun hnone => offset?_eq_none_iff.1 hnone h.isInfix
  obtain ⟨u, v, hfirst, rfl⟩ := exists_firstAt_of_offset? hi
  rw [hi, (h.unique hfirst).1]

theorem firstAt_iff : FirstAt pattern text front back ↔
    text = front ++ pattern ++ back ∧ offset? pattern text = some front.length := by
  refine ⟨fun h => ⟨h.split, h.offset?_eq⟩, fun ⟨hsplit, hoffset⟩ => ⟨hsplit, ?_⟩⟩
  obtain ⟨u, v, hfirst, hlength⟩ := exists_firstAt_of_offset? hoffset
  rw [← hlength]
  exact hfirst.first

instance [DecidableEq α] : Decidable (FirstAt pattern text front back) :=
  decidable_of_iff _ firstAt_iff.symm

end Offsets

/-! ## What stands behind -/

section Behind

variable {pattern text front middle back : List Char}

theorem after?_eq_drop (pattern text : List Char) :
    after? pattern text = (offset? pattern text).map fun i => text.drop (i + pattern.length) := by
  induction text with
  | nil => cases pattern <;> rfl
  | cons c cs ih =>
    rw [after?, offset?]
    split
    · simp
    · rw [ih, Option.map_map]
      congr 1
      funext i
      simp [Nat.add_right_comm]

theorem after?_eq_none_iff : after? pattern text = none ↔ ¬pattern <:+: text := by
  rw [after?_eq_drop, Option.map_eq_none_iff, offset?_eq_none_iff]

theorem occurs_iff : occurs pattern text = true ↔ pattern <:+: text := by
  rw [occurs, Option.isSome_iff_ne_none, ne_eq, after?_eq_none_iff, not_not]

theorem FirstAt.after?_eq (h : FirstAt pattern text front back) :
    after? pattern text = some back := by
  rw [after?_eq_drop, h.offset?_eq, Option.map_some, h.split, ← List.length_append,
    List.drop_left]

theorem after?_eq_some_iff :
    after? pattern text = some back ↔ ∃ front, FirstAt pattern text front back := by
  refine ⟨fun h => ?_, fun ⟨front, hfirst⟩ => hfirst.after?_eq⟩
  have hinfix : pattern <:+: text := by
    rw [← not_not (a := pattern <:+: text), ← after?_eq_none_iff, h]
    simp
  obtain ⟨front, v, hfirst⟩ := exists_firstAt hinfix
  obtain rfl : v = back := Option.some.inj (hfirst.after?_eq.symm.trans h)
  exact ⟨front, hfirst⟩

end Behind

/-! ## Middles that are left alone -/

/-- Every place of a pattern in a text of three parts lies in the first part or in the last. -/
def Avoids (pattern front middle back : List α) : Prop :=
  ∀ u v, front ++ middle ++ back = u ++ pattern ++ v →
    u ++ pattern <+: front ∨ pattern ++ v <:+ back

/-- A place that lies in neither of the outer parts begins before the last one and ends behind the
first. -/
theorem avoids_of_lengths (h : ∀ u v, front ++ middle ++ back = u ++ pattern ++ v →
    front.length < u.length + pattern.length → u.length < front.length + middle.length → False) :
    Avoids pattern front middle back := by
  intro u v heq
  by_cases hend : u.length + pattern.length ≤ front.length
  · left
    have hplace : u ++ pattern <+: front ++ middle ++ back := ⟨v, heq.symm⟩
    have hfront : front <+: front ++ middle ++ back := ⟨middle ++ back, (List.append_assoc ..).symm⟩
    exact List.prefix_of_prefix_length_le hplace hfront (by rwa [List.length_append])
  by_cases hbegin : front.length + middle.length ≤ u.length
  · right
    have hplace : pattern ++ v <:+ front ++ middle ++ back :=
      ⟨u, by rw [heq, List.append_assoc]⟩
    have hlengths := congrArg List.length heq
    simp only [List.length_append] at hlengths
    refine List.suffix_of_suffix_length_le hplace (List.suffix_append _ back) ?_
    rw [List.length_append]
    omega
  exact (h u v heq (by omega) (by omega)).elim

/-- A pattern that shares no character with the middle does not touch it, unless it is empty. -/
theorem avoids_of_disjoint (hmiddle : middle ≠ []) (hpattern : pattern ≠ [])
    (h : ∀ c ∈ middle, c ∉ pattern) : Avoids pattern front middle back := by
  have hm := List.length_pos_iff.2 hmiddle
  have hp := List.length_pos_iff.2 hpattern
  refine avoids_of_lengths fun u v heq hend hbegin => ?_
  -- the later one of the two beginnings is a place both in the middle and in the pattern
  obtain ⟨i, hi⟩ : ∃ i, i = max front.length u.length := ⟨_, rfl⟩
  have hleft : (front ++ middle ++ back)[i]? = middle[i - front.length]? := by
    rw [List.getElem?_append_left (by simp only [List.length_append]; omega),
      List.getElem?_append_right (by omega)]
  have hright : (u ++ pattern ++ v)[i]? = pattern[i - u.length]? := by
    rw [List.getElem?_append_left (by simp only [List.length_append]; omega),
      List.getElem?_append_right (by omega)]
  obtain ⟨c, hc⟩ : ∃ c, middle[i - front.length]? = some c :=
    ⟨_, List.getElem?_eq_getElem (by omega)⟩
  rw [heq, hright, hc] at hleft
  exact h c (List.mem_of_getElem? hc) (List.mem_of_getElem? hleft)

/-- A pattern goes across the seam of two texts only if the first one ends as it begins. -/
theorem avoids_nil (h : ∀ k, 0 < k → k < pattern.length → ¬pattern.take k <:+ front) :
    Avoids pattern front [] back := by
  refine avoids_of_lengths fun u v heq hend hbegin => ?_
  rw [List.length_nil, Nat.add_zero] at hbegin
  refine h (front.length - u.length) (by omega) (by omega) ⟨u, ?_⟩
  have htake := congrArg (List.take front.length) heq
  rw [List.append_nil, List.take_left, List.append_assoc, List.take_append,
    List.take_of_length_le (by omega), List.take_append_of_le_length (by omega)] at htake
  exact htake.symm

namespace Avoids

theorem isInfix_iff (h : Avoids pattern front middle back) :
    pattern <:+: front ++ middle ++ back ↔ pattern <:+: front ∨ pattern <:+: back := by
  constructor
  · rintro ⟨u, v, heq⟩
    rcases h u v heq.symm with ⟨w, hw⟩ | ⟨w, hw⟩
    · exact .inl ⟨u, w, hw⟩
    · exact .inr ⟨w, v, by rw [List.append_assoc, hw]⟩
  · rintro (hfront | hback)
    · exact hfront.trans (List.append_assoc front .. ▸ List.infix_append' [] front _)
    · exact hback.trans (List.suffix_append _ _).isInfix

/-- The first place in the last part is the first one of all if there is none in the first part. -/
theorem firstAt (h : Avoids pattern front middle back) (hfront : ¬pattern <:+: front)
    (hback : FirstAt pattern back u v) :
    FirstAt pattern (front ++ middle ++ back) (front ++ middle ++ u) v where
  split := by simp only [hback.split, List.append_assoc]
  first := by
    intro u' v' heq
    rcases h u' v' heq with ⟨w, hw⟩ | ⟨w, hw⟩
    · exact (hfront ⟨u', w, hw⟩).elim
    · have hle := hback.first w v' (by rw [List.append_assoc, hw])
      have hlengths := congrArg List.length heq
      rw [← hw] at hlengths
      simp only [List.length_append] at hlengths ⊢
      omega

theorem after?_eq {pattern front middle back : List Char} (h : Avoids pattern front middle back) :
    after? pattern (front ++ middle ++ back) =
      ((after? pattern front).map (· ++ (middle ++ back))).or (after? pattern back) := by
  cases hfront : after? pattern front with
  | some w =>
    obtain ⟨u, hfirst⟩ := after?_eq_some_iff.1 hfront
    rw [List.append_assoc, (hfirst.append (middle ++ back)).after?_eq]
    rfl
  | none =>
    have hnot := after?_eq_none_iff.1 hfront
    rw [Option.map_none, Option.none_or]
    cases hback : after? pattern back with
    | some w =>
      obtain ⟨u, hfirst⟩ := after?_eq_some_iff.1 hback
      exact (h.firstAt hnot hfirst).after?_eq
    | none =>
      rw [after?_eq_none_iff, h.isInfix_iff]
      exact not_or.2 ⟨hnot, after?_eq_none_iff.1 hback⟩

end Avoids

end Latchkey.Text
