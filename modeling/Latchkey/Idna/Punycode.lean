/-!
# Punycode

The labels of domains in other scripts as texts of ASCII, after RFC 3492: first the characters that
are ASCII, then, in the order of their code points, where each of the others goes.
-/

namespace Latchkey.Idna.Punycode

/-- The least code point that is not written as itself. -/
def firstCode : Nat := 128

/-- How far digits count before anything is known. -/
def firstBias : Nat := 72

/-- From which digit on a number may end, for the digit at a place and a bias. -/
def threshold (place bias : Nat) : Nat :=
  let k := 36 * (place + 1)
  if k ≤ bias + 1 then 1 else if bias + 26 ≤ k then 26 else k - bias

theorem threshold_le (place bias : Nat) : threshold place bias ≤ 26 := by
  simp only [threshold]
  split
  · decide
  · split <;> omega

theorem threshold_pos (place bias : Nat) : 1 ≤ threshold place bias := by
  simp only [threshold]
  split
  · decide
  · split <;> omega

/-- How often a difference is divided before it is small, and what is left of it. -/
def shrink (delta : Nat) : Nat × Nat :=
  if delta ≤ 455 then (0, delta)
  else
    let (times, rest) := shrink (delta / 35)
    (times + 1, rest)
termination_by delta
decreasing_by omega

/-- The bias after a difference, when so many characters are in place. -/
def adapt (delta placed : Nat) (isFirst : Bool) : Nat :=
  let delta := if isFirst then delta / 700 else delta / 2
  let (times, rest) := shrink (delta + delta / placed)
  36 * times + 36 * rest / (rest + 38)

/-- The digit of a value below thirty-six. -/
def digit (n : Nat) : Char :=
  if n < 26 then Char.ofNat ('a'.toNat + n) else Char.ofNat ('0'.toNat + (n - 26))

/-- The value of a digit. -/
def value? (c : Char) : Option Nat :=
  if 'a' ≤ c && c ≤ 'z' then some (c.toNat - 'a'.toNat)
  else if 'A' ≤ c && c ≤ 'Z' then some (c.toNat - 'A'.toNat)
  else if '0' ≤ c && c ≤ '9' then some (c.toNat - '0'.toNat + 26)
  else none

/-- The digits of a number, from a place on. -/
def numeral (bias place n : Nat) : List Char :=
  let t := threshold place bias
  if n < t then [digit n]
  else digit (t + (n - t) % (36 - t)) :: numeral bias (place + 1) ((n - t) / (36 - t))
termination_by n
decreasing_by
  have h₁ := threshold_le place bias
  have h₂ := threshold_pos place bias
  exact Nat.lt_of_le_of_lt (Nat.div_le_self _ _) (by omega)

/-! ## Writing -/

/-- The state of a pass over a label: the difference so far, the bias, how many characters are in
place, and what is written. -/
structure Pass where
  delta : Nat
  bias : Nat
  placed : Nat
  written : List Char

/-- Writes where all occurrences of a code point go. -/
def insertAll (code basic : Nat) (p : Pass) (label : List Char) : Pass :=
  label.foldl
    (fun p c =>
      if c.toNat < code then { p with delta := p.delta + 1 }
      else if c.toNat = code then
        { delta := 0, bias := adapt p.delta (p.placed + 1) (p.placed == basic)
          placed := p.placed + 1, written := p.written ++ numeral p.bias 0 p.delta }
      else p)
    p

/-- Code points, from the least, each after `previous`. -/
def insertCodes (label : List Char) (basic : Nat) : Nat → Pass → List Nat → Pass
  | _, p, [] => p
  | previous, p, code :: codes =>
    let p := { p with delta := p.delta + (code - previous) * (p.placed + 1) }
    let p := insertAll code basic p label
    insertCodes label basic (code + 1) { p with delta := p.delta + 1 } codes

/-- The code points of a label that are not ASCII, each once, from the least. -/
def codesOf (label : List Char) : List Nat :=
  ((label.map Char.toNat).filter (firstCode ≤ ·)).mergeSort.eraseDups

/-- A label in ASCII, without the mark that tells it is one. -/
def encode (label : List Char) : List Char :=
  let basic := label.filter (·.toNat < firstCode)
  let start := if basic.isEmpty then [] else basic ++ ['-']
  (insertCodes label basic.length firstCode ⟨0, firstBias, basic.length, start⟩
    (codesOf label)).written

/-! ## Reading -/

/-- A number at the front of a text, from a place on, and what follows it. -/
def number? (bias : Nat) : Nat → Nat → List Char → Option (Nat × List Char)
  | _, _, [] => none
  | place, weight, c :: cs => do
    let d ← value? c
    let t := threshold place bias
    if d < t then some (d * weight, cs)
    else
      let (n, rest) ← number? bias (place + 1) (weight * (36 - t)) cs
      return (d * weight + n, rest)

theorem number?_length {bias place weight n : Nat} {cs rest : List Char}
    (h : number? bias place weight cs = some (n, rest)) : rest.length < cs.length := by
  induction cs generalizing place weight n rest with
  | nil => simp [number?] at h
  | cons c cs ih =>
    simp only [number?, bind, Option.bind_eq_some_iff] at h
    obtain ⟨d, -, h⟩ := h
    split at h
    · simp at h
      simp [← h.2]
    · obtain ⟨⟨m, r⟩, hr, he⟩ := Option.bind_eq_some_iff.1 h
      have := ih hr
      simp at he
      simp [← he.2]
      omega

/-- The character of a code point, if it is one. -/
def char? (n : Nat) : Option Char :=
  if h : n.isValidChar then some (Char.ofNatAux n h) else none

/-- Puts the characters that the rest of a text tells of into a label. -/
def insertFrom (code index bias : Nat) (isFirst : Bool) (label cs : List Char) :
    Option (List Char) :=
  if cs.isEmpty then some label
  else
    match _h : number? bias 0 1 cs with
    | none => none
    | some (delta, rest) =>
      let size := label.length + 1
      let index := index + delta
      let code := code + index / size
      match char? code with
      | none => none
      | some c =>
        let place := index % size
        insertFrom code (place + 1) (adapt delta size isFirst) false
          (label.take place ++ c :: label.drop place) rest
termination_by cs.length
decreasing_by exact number?_length (by assumption)

/-- The text before the last hyphen and the text after it; without one, all of it comes after. -/
def splitLast (cs : List Char) : List Char × List Char :=
  let tail := (cs.reverse.takeWhile (· ≠ '-')).reverse
  (cs.take (cs.length - tail.length - 1), tail)

/-- The label that a text in ASCII stands for. A hyphen ends the characters that are written as
themselves, unless there are none. -/
def decode? (cs : List Char) : Option (List Char) :=
  let (basic, rest) := splitLast cs
  insertFrom firstCode 0 firstBias true basic (if basic.isEmpty then cs else rest)

end Latchkey.Idna.Punycode
