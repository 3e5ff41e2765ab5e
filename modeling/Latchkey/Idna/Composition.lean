import Latchkey.Idna.PropertyTables
import Latchkey.Idna.Run

/-!
# Canonical composition

One spelling for texts that Unicode takes for the same: letters and marks that have a character of
their own are written as that, and marks that stand at different places of a letter come in a fixed
order. Characters that mapping has replaced are not considered.
-/

namespace Latchkey.Idna

/-- The runs of characters of one combining class. -/
def combiningRuns : List (Run Nat) := numberRuns combiningText

/-- The combining class of a character: zero for those that do not move. -/
def combiningClass (c : Char) : Nat :=
  ((runOf? combiningRuns c.toNat).map (·.value)).getD 0

/-- Two characters and the one that they are written as. -/
structure Pair where
  first : Char
  second : Char
  whole : Char

/-- The pairs of the table. -/
def pairs : List Pair :=
  (words compositionText).filterMap fun word =>
    match numbers word with
    | [a, b, c] => some ⟨Char.ofNat a, Char.ofNat b, Char.ofNat c⟩
    | _ => none

/-! ## Korean syllables

A syllable is a leading consonant, a vowel and possibly a trailing consonant. All syllables have a
character of their own, in the order of their parts. -/

/-- The first syllable. -/
def syllableBase : Nat := 0xAC00

/-- The first leading consonant. -/
def leadBase : Nat := 0x1100

/-- The first vowel. -/
def vowelBase : Nat := 0x1161

/-- The number before the first trailing consonant, which stands for none. -/
def trailBase : Nat := 0x11A7

/-- How many leading consonants there are. -/
def leadCount : Nat := 19

/-- How many vowels there are. -/
def vowelCount : Nat := 21

/-- How many trailing consonants there are, none among them. -/
def trailCount : Nat := 28

/-- The character is a syllable. -/
def isSyllable (n : Nat) : Bool :=
  syllableBase ≤ n && n < syllableBase + leadCount * vowelCount * trailCount

/-- The syllable of a consonant and a vowel, or of a syllable without trail and a consonant. -/
def syllable? (a b : Nat) : Option Nat :=
  if leadBase ≤ a && a < leadBase + leadCount && vowelBase ≤ b && b < vowelBase + vowelCount then
    some (syllableBase + ((a - leadBase) * vowelCount + (b - vowelBase)) * trailCount)
  else if isSyllable a && (a - syllableBase) % trailCount == 0 && trailBase < b &&
      b < trailBase + trailCount then some (a + (b - trailBase))
  else none

/-- The parts of a syllable. -/
def syllableParts (n : Nat) : List Nat :=
  let i := n - syllableBase
  let trail := i % trailCount
  [leadBase + i / trailCount / vowelCount, vowelBase + i / trailCount % vowelCount] ++
    (if trail = 0 then [] else [trailBase + trail])

/-! ## Taking apart and putting together -/

/-- The parts of a character. The first part may have parts itself, up to a depth. -/
def parts : Nat → Char → List Char
  | 0, c => [c]
  | depth + 1, c =>
    if isSyllable c.toNat then (syllableParts c.toNat).map Char.ofNat
    else
      match pairs.find? (·.whole = c) with
      | none => [c]
      | some p => parts depth p.first ++ [p.second]

/-- The greatest depth of parts. -/
def maxDepth : Nat := 4

/-- A mark put before all marks of a greater class that end a reversed text. -/
def settle (c : Char) : List Char → List Char
  | [] => [c]
  | d :: ds =>
    if combiningClass c ≠ 0 && combiningClass c < combiningClass d then d :: settle c ds
    else c :: d :: ds

/-- A text with its marks in order. -/
def ordered (cs : List Char) : List Char :=
  (cs.foldl (fun done c => settle c done) []).reverse

/-- The one character for two, if there is one. -/
def compose? (a b : Char) : Option Char :=
  match syllable? a.toNat b.toNat with
  | some n => some (Char.ofNat n)
  | none => (pairs.find? fun p => p.first = a && p.second = b).map (·.whole)

/-- A character that others may join, and the marks behind it that did not, in order. -/
structure Cluster where
  base : Char
  marks : List Char

/-- No mark stands between the base and a character of this class. -/
def Cluster.isOpenTo (k : Cluster) (cls : Nat) : Bool :=
  match k.marks.getLast? with
  | none => true
  | some m => combiningClass m < cls

/-- A text put together, with the cluster at its end still open. -/
def joinFrom (k : Cluster) : List Char → List Char
  | [] => k.base :: k.marks
  | c :: cs =>
    let cls := combiningClass c
    match if k.isOpenTo cls then compose? k.base c else none with
    | some whole => joinFrom { k with base := whole } cs
    | none =>
      if cls = 0 then k.base :: k.marks ++ joinFrom ⟨c, []⟩ cs
      else joinFrom { k with marks := k.marks ++ [c] } cs

/-- The composed form of a text. -/
def composed (cs : List Char) : List Char :=
  match ordered (cs.flatMap (parts maxDepth)) with
  | [] => []
  | c :: rest => joinFrom ⟨c, []⟩ rest

end Latchkey.Idna
