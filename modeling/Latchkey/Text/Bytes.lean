/-!
# Texts as bytes

The bytes of a text in UTF-8, and the text that bytes encode. Bytes that encode no text are still
read letter by letter: what makes up a character counts as that, and any other byte stands for
nothing. `letters_bytes` says that the letters of a text's own bytes are its characters.
-/

namespace Latchkey.Text

/-- The bytes of a text in UTF-8. -/
def bytes (s : String) : List UInt8 :=
  s.toUTF8.data.toList

/-- The text that bytes encode in UTF-8, if they encode one. -/
def ofBytes? (bs : List UInt8) : Option String :=
  String.fromUTF8? ⟨bs.toArray⟩

theorem ofBytes?_bytes (s : String) : ofBytes? (bytes s) = some s := by
  simp [ofBytes?, bytes, String.fromUTF8?, String.fromUTF8, s.isValidUTF8]

/-! ## Letters -/

/-- What stands at a place among bytes: a character, or nothing where a byte belongs to none. -/
abbrev Letter := Option Char

/-- The letters of a text. -/
def lettersOf (cs : List Char) : List Letter :=
  cs.map some

/-- The character that bytes begin with, and how many of them it takes. -/
def firstChar? (bs : List UInt8) : Option (Char × Nat) :=
  [1, 2, 3, 4].findSome? fun n =>
    match (ofBytes? (bs.take n)).map String.toList with
    | some [c] => some (c, n)
    | _ => none

/-- The letters of bytes, from the front. -/
def readLetters : List UInt8 → List Letter
  | [] => []
  | b :: rest =>
    match firstChar? (b :: rest) with
    | some (c, n) => some c :: readLetters (rest.drop (n - 1))
    | none => none :: readLetters rest
termination_by bs => bs.length
decreasing_by
  · exact Nat.lt_succ_of_le (by simp only [List.length_drop, Nat.sub_le])
  · exact Nat.lt_succ_self _

/-- The letters of bytes. -/
def letters (bs : List UInt8) : List Letter :=
  match ofBytes? bs with
  | some s => lettersOf s.toList
  | none => readLetters bs

theorem letters_bytes (s : String) : letters (bytes s) = lettersOf s.toList := by
  simp [letters, ofBytes?_bytes]

end Latchkey.Text
