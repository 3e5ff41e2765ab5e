import Mathlib.Data.List.DropRight
import Latchkey.Text.Blank
import Latchkey.Text.Pieces

/-!
# Cutting and trimming

What trimming leaves alone, and where a text that was glued together is cut.
-/

namespace Latchkey.Text

/-! ## Trimming -/

/-- The visible characters of ASCII are no blanks. -/
theorem isBlank_of_visible {c : Char} (h : 0x21 ≤ c.toNat ∧ c.toNat ≤ 0x7E) :
    isBlank c = false := by
  simp only [isBlank, Bool.or_eq_false_iff, Bool.and_eq_false_iff, beq_eq_false_iff_ne,
    decide_eq_false_iff_not]
  omega

theorem trimChars_append {bs cs : List Char} (h : ∀ b ∈ bs, isBlank b = true) :
    trimChars (bs ++ cs) = trimChars cs := by
  rw [trimChars, trimChars, List.dropWhile_append_of_pos h]

/-- The core of a text stands between blanks and has none at its own ends. -/
structure IsCore (cs core : List Char) : Prop where
  between : ∃ left right, cs = left ++ core ++ right ∧ (∀ c ∈ left, isBlank c = true) ∧
    ∀ c ∈ right, isBlank c = true
  first : ∀ c ∈ core.head?, isBlank c = false
  last : ∀ c ∈ core.getLast?, isBlank c = false

theorem isCore_trimChars (cs : List Char) : IsCore cs (trimChars cs) where
  between := by
    refine ⟨cs.takeWhile isBlank, (cs.dropWhile isBlank).rtakeWhile isBlank, ?_, ?_, ?_⟩
    · have hback : trimChars cs ++ (cs.dropWhile isBlank).rtakeWhile isBlank =
          cs.dropWhile isBlank := List.rdropWhile_append_rtakeWhile
      rw [List.append_assoc, hback, List.takeWhile_append_dropWhile]
    · exact fun c hc => List.mem_takeWhile_imp hc
    · exact fun c hc => List.mem_rtakeWhile_imp hc
  first := by
    intro c hc
    obtain ⟨right, hright⟩ : trimChars cs <+: cs.dropWhile isBlank :=
      List.rdropWhile_prefix isBlank _
    have hhead := List.head?_dropWhile_not isBlank cs
    rwa [← hright, List.head?_append, hc] at hhead
  last := by
    intro c hc
    obtain ⟨hne, rfl⟩ := List.mem_getLast?_eq_getLast hc
    exact Bool.eq_false_iff.2 (List.rdropWhile_last_not isBlank _ hne)

/-- A text has one core, and trimming finds it. -/
theorem trimChars_eq_iff {cs core : List Char} : trimChars cs = core ↔ IsCore cs core := by
  refine ⟨fun h => h ▸ isCore_trimChars cs, ?_⟩
  rintro ⟨⟨left, right, rfl, hleft, hright⟩, hfirst, hlast⟩
  rw [List.append_assoc, trimChars_append hleft, trimChars]
  cases core with
  | nil =>
    rw [List.nil_append, List.dropWhile_eq_nil_iff.2 hright]
    rfl
  | cons c core =>
    have hback : ∀ b ∈ right.reverse, isBlank b = true := fun b hb =>
      hright b (List.mem_reverse.1 hb)
    have hend : (c :: core).rdropWhile isBlank = c :: core := by
      refine List.rdropWhile_eq_self_iff.2 fun hne => ?_
      exact Bool.eq_false_iff.1 (hlast _ (List.getLast?_eq_some_getLast hne))
    rw [List.cons_append, List.dropWhile_cons_of_neg (Bool.eq_false_iff.1 (hfirst c rfl)),
      ← List.cons_append, List.reverse_append, List.dropWhile_append_of_pos hback]
    exact hend

/-- Nothing is left of a text exactly if it was blank throughout. -/
theorem trimChars_eq_nil_iff {cs : List Char} :
    trimChars cs = [] ↔ ∀ c ∈ cs, isBlank c = true := by
  rw [trimChars_eq_iff]
  constructor
  · rintro ⟨⟨left, right, rfl, hleft, hright⟩, -, -⟩ c hc
    rw [List.append_nil] at hc
    exact (List.mem_append.1 hc).elim (hleft c) (hright c)
  · intro h
    exact ⟨⟨cs, [], by simp, h, by simp⟩, by simp, by simp⟩

/-- A text without blanks is left as it is. -/
theorem trimChars_eq_self {cs : List Char} (h : ∀ c ∈ cs, isBlank c = false) :
    trimChars cs = cs := by
  refine trimChars_eq_iff.2 ⟨⟨[], [], by simp, by simp, by simp⟩, ?_, ?_⟩
  · exact fun c hc => h c (List.mem_of_mem_head? hc)
  · exact fun c hc => h c (List.mem_of_mem_getLast? hc)

/-! ## Cutting -/

/-- The text before a separator that was put behind a text without one. -/
theorem before_append_cons {sep : Char} {cs rest : List Char} (h : sep ∉ cs) :
    before sep (cs ++ sep :: rest) = cs := by
  have hcs : ∀ c ∈ cs, decide (c ≠ sep) = true := fun c hc =>
    decide_eq_true fun heq => h (heq ▸ hc)
  rw [before, List.takeWhile_append_of_pos hcs, List.takeWhile_cons_of_neg (by simp),
    List.append_nil]

/-- The text before the first separator has none, and the separator follows it unless it is all. -/
theorem before_eq_iff {sep : Char} {cs front : List Char} :
    before sep cs = front ↔ sep ∉ front ∧ (cs = front ∨ ∃ rest, cs = front ++ sep :: rest) := by
  constructor
  · rintro rfl
    refine ⟨fun hmem => by simpa using List.mem_takeWhile_imp hmem, ?_⟩
    have hcs := (List.takeWhile_append_dropWhile (p := (· ≠ sep)) (l := cs)).symm
    have hstop := List.head?_dropWhile_not (· ≠ sep) cs
    cases hrest : cs.dropWhile (· ≠ sep) with
    | nil =>
      rw [hrest, List.append_nil] at hcs
      exact .inl hcs
    | cons c rest =>
      rw [hrest] at hcs hstop
      have hc : c = sep := by simpa using hstop
      exact .inr ⟨rest, hc ▸ hcs⟩
  · rintro ⟨hfront, rfl | ⟨rest, rfl⟩⟩
    · exact List.takeWhile_eq_self_iff.2 fun c hc => decide_eq_true fun heq => hfront (heq ▸ hc)
    · exact before_append_cons hfront

theorem pieces_of_not_mem {sep : Char} {cs : List Char} (h : sep ∉ cs) : pieces sep cs = [cs] := by
  induction cs with
  | nil => rfl
  | cons c cs ih =>
    have hc : c ≠ sep := fun heq => h (heq ▸ List.mem_cons_self)
    have hcs : sep ∉ cs := fun hmem => h (List.mem_cons_of_mem _ hmem)
    rw [pieces, if_neg hc, ih hcs]

/-- A text is cut at every separator, also at one that was put between two texts. -/
theorem pieces_append (sep : Char) (cs rest : List Char) :
    pieces sep (cs ++ sep :: rest) = pieces sep cs ++ pieces sep rest := by
  induction cs with
  | nil => simp [pieces]
  | cons c cs ih =>
    rw [List.cons_append, pieces, pieces, ih]
    split
    · rfl
    · cases hp : pieces sep cs with
      | nil => exact absurd hp (pieces_ne_nil sep cs)
      | cons p ps => rfl

/-- Texts without separators come back as they were glued. -/
theorem pieces_glue {sep : Char} {ps : List (List Char)} (hne : ps ≠ [])
    (h : ∀ p ∈ ps, sep ∉ p) : pieces sep (glue sep ps) = ps := by
  induction ps with
  | nil => exact absurd rfl hne
  | cons p ps ih =>
    have hp := pieces_of_not_mem (h p List.mem_cons_self)
    cases ps with
    | nil => exact hp
    | cons q qs =>
      have hrest := ih (by simp) fun r hr => h r (List.mem_cons_of_mem _ hr)
      rw [glue, pieces_append, hp, hrest]
      rfl

/-- Texts that each stand behind a separator. -/
theorem flatMap_cons_eq_glue (sep : Char) (p : List Char) (ps : List (List Char)) :
    (p :: ps).flatMap (sep :: ·) = glue sep ([] :: p :: ps) := by
  induction ps generalizing p with
  | nil => simp [glue]
  | cons q ps ih =>
    rw [List.flatMap_cons, ih q]
    simp [glue]

theorem mem_glue {sep c : Char} {ps : List (List Char)} (h : c ∈ glue sep ps) :
    c = sep ∨ ∃ p ∈ ps, c ∈ p := by
  induction ps with
  | nil => cases h
  | cons p ps ih =>
    cases ps with
    | nil => exact .inr ⟨p, List.mem_cons_self, h⟩
    | cons q qs =>
      rw [glue] at h
      rcases List.mem_append.1 h with h | h
      · exact .inr ⟨p, List.mem_cons_self, h⟩
      · rcases List.mem_cons.1 h with h | h
        · exact .inl h
        · rcases ih h with h | ⟨r, hr, hc⟩
          · exact .inl h
          · exact .inr ⟨r, List.mem_cons_of_mem _ hr, hc⟩

/-- Every character but the separator is in a piece. -/
theorem mem_pieces_of_mem {sep c : Char} {cs : List Char} (h : c ∈ cs) (hne : c ≠ sep) :
    ∃ p ∈ pieces sep cs, c ∈ p := by
  rw [← glue_pieces sep cs] at h
  rcases mem_glue h with h | h
  · exact absurd h hne
  · exact h

/-- What is left behind a fixed beginning. -/
theorem dropStart?_eq_some {start cs rest : List Char} :
    dropStart? start cs = some rest ↔ cs = start ++ rest := by
  unfold dropStart?
  constructor
  · intro h
    split at h
    · next hstart =>
      obtain ⟨tail, rfl⟩ := List.isPrefixOf_iff_prefix.1 hstart
      rw [List.drop_left, Option.some.injEq] at h
      rw [h]
    · cases h
  · rintro rfl
    simp

end Latchkey.Text
