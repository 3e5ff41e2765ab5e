import Latchkey.Idna.MappingTable
import Latchkey.Idna.Run

/-!
# Mapping of characters in domains

Before a domain is looked at, each of its characters is kept, dropped, replaced or refused, so that
spellings that are taken for one another become one.
-/

namespace Latchkey.Idna

/-- What the characters of a run become. -/
inductive Rule where
  | keep
  | drop
  | refuse
  | replace (targets : List Nat)
  /-- Every `stride`th character, counted from the start of the run, becomes as far behind `target`
  as it is behind the start; those between are kept. -/
  | shift (start stride target : Nat)

/-- The runs of the table. -/
def rules : Nat → List (List Char) → List (Run Rule)
  | start, ('v' :: length) :: rest =>
    ⟨start + number length - 1, .keep⟩ :: rules (start + number length) rest
  | start, ('i' :: length) :: rest =>
    ⟨start + number length - 1, .drop⟩ :: rules (start + number length) rest
  | start, ('x' :: length) :: rest =>
    ⟨start + number length - 1, .refuse⟩ :: rules (start + number length) rest
  | start, ('m' :: targets) :: rest =>
    ⟨start, .replace (numbers targets)⟩ :: rules (start + 1) rest
  | start, ('s' :: word) :: rest =>
    match numbers word with
    | [length, target] => ⟨start + length - 1, .shift start 1 target⟩ :: rules (start + length) rest
    | _ => []
  | start, ('t' :: word) :: rest =>
    match numbers word with
    | [count, target] =>
      ⟨start + 2 * count - 1, .shift start 2 target⟩ :: rules (start + 2 * count) rest
    | _ => []
  | _, _ => []

/-- The runs of characters with one rule, in their order. -/
def mapping : List (Run Rule) := rules 0 (words mappingText)

/-- What a character becomes; nothing if it is refused. -/
def mapChar? (c : Char) : Option (List Char) :=
  match runOf? mapping c.toNat with
  | some ⟨_, .keep⟩ => some [c]
  | some ⟨_, .drop⟩ => some []
  | some ⟨_, .replace targets⟩ => some (targets.map Char.ofNat)
  | some ⟨_, .shift start stride target⟩ =>
    let behind := c.toNat - start
    if behind % stride = 0 then some [Char.ofNat (target + behind)] else some [c]
  | some ⟨_, .refuse⟩ | none => none

/-- What a text becomes. -/
def mapChars? (cs : List Char) : Option (List Char) :=
  (cs.mapM mapChar?).map List.flatten

/-- The character may stand in a domain as it is. -/
def isKept (c : Char) : Bool :=
  mapChar? c = some [c]

end Latchkey.Idna
