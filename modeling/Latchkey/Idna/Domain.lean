import Latchkey.Idna.Composition
import Latchkey.Idna.Mapping
import Latchkey.Idna.Punycode

/-!
# Domains in other scripts

The form in ASCII of a domain, after UTS #46 without transitional processing: its characters are
mapped and composed, each label is checked, and labels of other scripts are written in Punycode.
Which marks of ASCII a label may hold, and how long it is in ASCII, is not checked here.
-/

namespace Latchkey.Idna

open Text

/-! ## Labels -/

/-- The runs of characters that are marks, and of those that are not. -/
def markRuns : List (Run Char) := letterRuns markText

/-- The character is a mark. -/
def isMark (c : Char) : Bool :=
  (runOf? markRuns c.toNat).any (·.value == 'm')

/-- The character is in ASCII. -/
def isAscii (c : Char) : Bool := c.toNat < 128

/-- The beginning of labels in Punycode. -/
def mark : List Char := "xn--".toList

/-- What a label in ASCII stands for: it has to be another script's, written as it would be here. -/
def decoded? (body : List Char) : Option (List Char) := do
  if !body.all isAscii || body.getLast? = some '-' then none
  else
    let label ← Punycode.decode? body
    if !label.all isAscii && label.all isKept && composed label = label then some label else none

/-- The label that is meant by a mapped one. -/
def meant? (label : List Char) : Option (List Char) :=
  match dropStart? mark label with
  | none => some label
  | some body => decoded? body

/-! ## Joiners -/

/-- The runs of characters that join their neighbours in one way. -/
def joiningRuns : List (Run Char) := letterRuns joiningText

/-- How a character joins its neighbours. -/
def joining (c : Char) : Char :=
  ((runOf? joiningRuns c.toNat).map (·.value)).getD 'u'

/-- The joiner that keeps its neighbours apart. -/
def nonJoiner : Char := '\u200c'

/-- The joiner that binds its neighbours together. -/
def joiner : Char := '\u200d'

/-- The combining class of the sign that takes the vowel off a letter. -/
def vowelKiller : Nat := 9

/-- The nearest character that is not seen through joins to a side: `l` or `r`. -/
def joinsTo (side : Char) (cs : List Char) : Bool :=
  match cs.dropWhile (joining · == 't') with
  | [] => false
  | c :: _ => joining c == side || joining c == 'd'

/-- A joiner may stand between these characters, the ones before it in reverse. -/
def mayJoin (c : Char) (before after : List Char) : Bool :=
  before.head?.any (combiningClass · == vowelKiller) ||
    (c == nonJoiner && joinsTo 'l' before && joinsTo 'r' after)

/-- All joiners of a label may stand where they do. -/
def checkJoiners : List Char → List Char → Bool
  | _, [] => true
  | before, c :: after =>
    (!(c == nonJoiner || c == joiner) || mayJoin c before after) && checkJoiners (c :: before) after

/-! ## Directions -/

/-- The runs of characters of one direction. -/
def directionRuns : List (Run Char) := letterRuns directionText

/-- The direction of a character, as the table writes it. -/
def direction (c : Char) : Char :=
  ((runOf? directionRuns c.toNat).map (·.value)).getD 'x'

/-- The label holds a character that is written from right to left. -/
def isLeftward (label : List Char) : Bool :=
  label.any fun c => direction c ∈ ['r', 'a', 'n']

/-- The last direction of a label that is not a mark's. -/
def lastDirection? (label : List Char) : Option Char :=
  (label.reverse.map direction).find? (· ≠ 'm')

/-- A label of a domain that holds one from right to left has one direction throughout. -/
def checkDirection (label : List Char) : Bool :=
  match label.map direction with
  | [] => true
  | 'l' :: rest =>
    rest.all (· ∈ "lesctobm".toList) && (lastDirection? label).any (· ∈ ['l', 'e'])
  | first :: rest =>
    first ∈ ['r', 'a'] && rest.all (· ∈ "ranesctobm".toList) &&
      (lastDirection? label).any (· ∈ ['r', 'a', 'e', 'n']) && !('e' ∈ rest && 'n' ∈ rest)

/-! ## Domains -/

/-- How many characters a label of another script holds at most. -/
def maxLabel : Nat := 1000

/-- The label may stand in a domain of other scripts. -/
def isFit (label : List Char) : Bool :=
  !label.head?.any isMark && checkJoiners [] label &&
    (label.all isAscii || label.length ≤ maxLabel)

/-- A label in ASCII. -/
def written (label : List Char) : List Char :=
  if label.all isAscii then label else mark ++ Punycode.encode label

/-- The form of a domain in ASCII, if it has one. -/
def toAscii? (domain : List Char) : Option (List Char) := do
  let mapped ← mapChars? domain
  let labels ← (pieces '.' (composed mapped)).mapM meant?
  if labels.all isFit && (!labels.any isLeftward || labels.all checkDirection) then
    some (glue '.' (labels.map written))
  else none

end Latchkey.Idna
