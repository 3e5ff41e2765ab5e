/-!
# Cutting a text at a character

`pieces` cuts at every occurrence of a separator, so that a text of `n` separators has `n + 1`
pieces; `glue` puts the separator back and undoes it.
-/

namespace Latchkey.Text

/-- The texts between the separators, in order. There is always at least one. -/
def pieces (sep : Char) : List Char → List (List Char)
  | [] => [[]]
  | c :: cs =>
    if c = sep then [] :: pieces sep cs
    else
      match pieces sep cs with
      | [] => [[c]]
      | p :: ps => (c :: p) :: ps

/-- Pieces written one after the other with the separator between them. -/
def glue (sep : Char) : List (List Char) → List Char
  | [] => []
  | [p] => p
  | p :: q :: ps => p ++ sep :: glue sep (q :: ps)

/-- The text before the first separator, or all of it. -/
def before (sep : Char) (cs : List Char) : List Char :=
  cs.takeWhile (· ≠ sep)

/-- The text after the first occurrence of a pattern, if it occurs. -/
def after? (pattern : List Char) : List Char → Option (List Char)
  | [] => if pattern = [] then some [] else none
  | c :: cs =>
    if pattern.isPrefixOf (c :: cs) then some ((c :: cs).drop pattern.length)
    else after? pattern cs

/-- The pattern occurs somewhere in the text. -/
def occurs (pattern cs : List Char) : Bool :=
  (after? pattern cs).isSome

/-- The text behind a fixed beginning, if it begins so. -/
def dropStart? {α : Type} [BEq α] (start cs : List α) : Option (List α) :=
  if start.isPrefixOf cs then some (cs.drop start.length) else none

theorem pieces_ne_nil (sep : Char) (cs : List Char) : pieces sep cs ≠ [] := by
  cases cs with
  | nil => simp [pieces]
  | cons c cs =>
    simp only [pieces]
    split
    · simp
    · split <;> simp

/-- Cutting loses nothing. -/
theorem glue_pieces (sep : Char) (cs : List Char) : glue sep (pieces sep cs) = cs := by
  induction cs with
  | nil => rfl
  | cons c cs ih =>
    simp only [pieces]
    cases hp : pieces sep cs with
    | nil => exact absurd hp (pieces_ne_nil sep cs)
    | cons p ps =>
      rw [hp] at ih
      split
      · next h => simp [glue, ih, h]
      · cases ps with
        | nil => simp only [glue] at ih ⊢; rw [ih]
        | cons q qs => simp only [glue] at ih ⊢; rw [← ih]; rfl

end Latchkey.Text
