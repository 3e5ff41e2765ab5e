import Latchkey.Text.Pieces

/-!
# Runs of characters

A property of characters is kept as runs of consecutive characters with the same value, which
together cover all characters from U+0000 on.
-/

namespace Latchkey.Idna

open Text

/-- Characters up to a last one that share a value. -/
structure Run (α : Type) where
  last : Nat
  value : α

/-- Runs from their lengths and values. -/
def runsFrom {α : Type} : Nat → List (Nat × α) → List (Run α)
  | _, [] => []
  | start, (length, value) :: rest =>
    ⟨start + length - 1, value⟩ :: runsFrom (start + length) rest

/-- The run that a character is in. -/
def runOf? {α : Type} (runs : List (Run α)) (n : Nat) : Option (Run α) :=
  runs.find? (n ≤ ·.last)

/-- What a digit of the base thirty-six counts. -/
def digitValue (c : Char) : Nat :=
  if c ≤ '9' then c.toNat - '0'.toNat else c.toNat - 'a'.toNat + 10

/-- A number of the base thirty-six. -/
def number (cs : List Char) : Nat :=
  cs.foldl (fun n c => 36 * n + digitValue c) 0

/-- The words of a table, with blanks or line ends between them. -/
def words (text : String) : List (List Char) :=
  pieces ' ' (text.toList.map fun c => if c = '\n' then ' ' else c)

/-- Runs with a letter for their value in front of their length. -/
def letterRuns (text : String) : List (Run Char) :=
  runsFrom 0 ((words text).filterMap fun
    | letter :: length => some (number length, letter)
    | [] => none)

/-- The numbers of a word, with points between them. -/
def numbers (word : List Char) : List Nat :=
  (pieces '.' word).map number

/-- Runs with a number for their value behind their length. -/
def numberRuns (text : String) : List (Run Nat) :=
  runsFrom 0 ((words text).filterMap fun word =>
    match numbers word with
    | [length, value] => some (length, value)
    | _ => none)

end Latchkey.Idna
