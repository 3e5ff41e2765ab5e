import Latchkey.Json.Basic
import Latchkey.Text.Bytes
import Latchkey.Text.Decimal
import Latchkey.Text.Hex
import Latchkey.Text.Pieces

/-!
# Tokens of JSON texts

A JSON text is a sequence of tokens with blanks between them. `Token.next?` reads one token off the
front of a text and always takes at least one letter; `Token.chars` writes one. A byte that belongs
to no character may stand in a string, which then denotes no text.
-/

namespace Latchkey.Json

open Text

/-- A token: punctuation or a value without parts. -/
inductive Token where
  | openArray
  | closeArray
  | openObject
  | closeObject
  | comma
  | colon
  | null
  | bool (b : Bool)
  | number (n : Number)
  | text (s : String)
  | broken (passed : Bool)
  deriving DecidableEq, Repr

namespace Token

/-- The blanks that may stand between tokens. -/
def isSpace (c : Char) : Bool :=
  c == ' ' || c == '\t' || c == '\n' || c == '\r'

/-! ## Strings -/

/-- What one letter or escape of a string stands for: a character, sixteen bits, or nothing. -/
inductive Piece where
  | char (c : Char)
  | escape (code : Nat)
  | stray

/-- The character that a short escape stands for. -/
def shortEscape? : Char → Option Char
  | '"' => some '"'
  | '\\' => some '\\'
  | '/' => some '/'
  | 'b' => some '\x08'
  | 'f' => some '\x0c'
  | 'n' => some '\n'
  | 'r' => some '\r'
  | 't' => some '\t'
  | _ => none

/-- The pieces of a string behind its opening quote, and what follows its closing quote. -/
def stringPieces? : List Letter → Option (List Piece × List Letter)
  | [] => none
  | some '"' :: rest => some ([], rest)
  | some '\\' :: some 'u' :: some a :: some b :: some c :: some d :: rest => do
    let code ← ofHex? [a, b, c, d]
    let (us, after) ← stringPieces? rest
    return (.escape code :: us, after)
  | some '\\' :: some e :: rest => do
    let c ← shortEscape? e
    let (us, after) ← stringPieces? rest
    return (.char c :: us, after)
  | none :: rest => do
    let (us, after) ← stringPieces? rest
    return (.stray :: us, after)
  | some c :: rest =>
    if c.toNat < 0x20 || c = '\\' then none
    else do
      let (us, after) ← stringPieces? rest
      return (.char c :: us, after)

/-- The code is the first half of a surrogate pair. -/
def isHighHalf (code : Nat) : Bool := 0xD800 ≤ code && code < 0xDC00

/-- The code is the second half of a surrogate pair. -/
def isLowHalf (code : Nat) : Bool := 0xDC00 ≤ code && code < 0xE000

/-- The text of a string, if every half of a surrogate pair stands before its other half. -/
def join? : List Piece → Option (List Char)
  | [] => some []
  | .char c :: us => (join? us).map (c :: ·)
  | .stray :: _ => none
  | .escape high :: .escape low :: us =>
    if isHighHalf high then
      if isLowHalf low then
        (join? us).map (Char.ofNat (0x10000 + (high - 0xD800) * 0x400 + (low - 0xDC00)) :: ·)
      else none
    else if isLowHalf high then none
    else (join? (.escape low :: us)).map (Char.ofNat high :: ·)
  | .escape code :: us =>
    if isHighHalf code || isLowHalf code then none
    else (join? us).map (Char.ofNat code :: ·)

/-- Whoever reads a string comes to its end: escapes are in order, or the first half of a pair is
all that is left, and the closing quote is taken for what should follow. Stray bytes are only
noticed behind the end. -/
def isPassed : List Piece → Bool
  | [] => true
  | .escape high :: .escape low :: us =>
    if isHighHalf high then isLowHalf low && isPassed us
    else !isLowHalf high && isPassed (.escape low :: us)
  | .escape code :: us =>
    if isHighHalf code then us.isEmpty else !isLowHalf code && isPassed us
  | _ :: us => isPassed us

/-- The token of a string. -/
def ofPieces (us : List Piece) : Token :=
  match join? us with
  | some cs => .text (String.ofList cs)
  | none => .broken (isPassed us)

/-! ## Numbers -/

/-- The digits that a text begins with, and what follows them. -/
def digitRun (ls : List Letter) : List Char × List Letter :=
  ((ls.takeWhile (·.any isDigit)).filterMap id, ls.dropWhile (·.any isDigit))

/-- The integer part of a number: a zero alone, or digits that begin with another. -/
def wholePart? (ls : List Letter) : Option (List Char × List Letter) :=
  match ls with
  | some '0' :: rest => some (['0'], rest)
  | l :: _ => if l.any isDigit then some (digitRun ls) else none
  | [] => none

/-- The digits of a fraction, if the text goes on with a point; at least one must follow. -/
def fraction? : List Letter → Option (List Char × List Letter)
  | some '.' :: rest =>
    match digitRun rest with
    | ([], _) => none
    | found => some found
  | ls => some ([], ls)

/-- A number of exponent digits behind an optional sign. -/
def exponentDigits? (negative : Bool) (ls : List Letter) : Option (Int × List Letter) :=
  match digitRun ls with
  | ([], _) => none
  | (ds, rest) =>
    let n : Int := (Nat.ofDigitChars 10 ds 0 : Nat)
    some (if negative then -n else n, rest)

/-- An exponent, if the text goes on with one. -/
def exponent? : List Letter → Option (Option Int × List Letter)
  | l :: rest =>
    if l = some 'e' || l = some 'E' then
      let found := match rest with
        | some '+' :: ds => exponentDigits? false ds
        | some '-' :: ds => exponentDigits? true ds
        | ds => exponentDigits? false ds
      found.map fun (n, after) => (some n, after)
    else some (none, l :: rest)
  | [] => some (none, [])

/-- The number that its parts denote. -/
def assemble (negative : Bool) (whole fraction : List Char) (exponent : Option Int) : Number :=
  let magnitude : Int := (Nat.ofDigitChars 10 (whole ++ fraction) 0 : Nat)
  let signed := if negative then -magnitude else magnitude
  if fraction.isEmpty && exponent.isNone && !(negative && magnitude == 0) then .integer signed
  else .real signed fraction.length (exponent.getD 0)

/-- A number at the front of a text whose sign has been read. -/
def number? (negative : Bool) (ls : List Letter) : Option (Token × List Letter) := do
  let (whole, ls) ← wholePart? ls
  let (fraction, ls) ← fraction? ls
  let (exponent, ls) ← exponent? ls
  return (.number (assemble negative whole fraction exponent), ls)

/-! ## One token -/

/-- A literal at the front of a text. -/
def literal? (word : String) (token : Token) (ls : List Letter) : Option (Token × List Letter) :=
  (dropStart? (lettersOf word.toList) ls).map (token, ·)

/-- The token that a text begins with, and what follows it. -/
def next? : List Letter → Option (Token × List Letter)
  | some c :: ls =>
    match c with
    | '[' => some (.openArray, ls)
    | ']' => some (.closeArray, ls)
    | '\x7b' => some (.openObject, ls)
    | '\x7d' => some (.closeObject, ls)
    | ',' => some (.comma, ls)
    | ':' => some (.colon, ls)
    | '"' => (stringPieces? ls).map fun (us, rest) => (ofPieces us, rest)
    | '-' => number? true ls
    | 'n' => literal? "ull" .null ls
    | 't' => literal? "rue" (.bool true) ls
    | 'f' => literal? "alse" (.bool false) ls
    | _ => number? false (some c :: ls)
  | _ => none

theorem length_digitRun_le (ls : List Letter) : (digitRun ls).2.length ≤ ls.length :=
  (List.dropWhile_sublist _).length_le

theorem length_digitRun_lt {l : Letter} (ls : List Letter) (h : l.any isDigit) :
    (digitRun (l :: ls)).2.length < (l :: ls).length := by
  simp only [digitRun, List.dropWhile_cons, h, if_true, List.length_cons]
  exact Nat.lt_succ_of_le (List.dropWhile_sublist _).length_le

theorem stringPieces?_length {ls : List Letter} {us : List Piece} {rest : List Letter}
    (h : stringPieces? ls = some (us, rest)) : rest.length < ls.length := by
  fun_induction stringPieces? ls generalizing us rest with
  | case1 => simp at h
  | case2 r => simp at h; simp [← h.2]
  | case3 a b c d r ih =>
    simp only [bind, Option.bind_eq_some_iff] at h
    obtain ⟨_, _, ⟨us', r'⟩, hr, he⟩ := h
    simp at he
    have := ih hr
    simp [← he.2]
    omega
  | case4 e r _ ih =>
    simp only [bind, Option.bind_eq_some_iff] at h
    obtain ⟨_, _, ⟨us', r'⟩, hr, he⟩ := h
    simp at he
    have := ih hr
    simp [← he.2]
    omega
  | case5 r ih =>
    simp only [bind, Option.bind_eq_some_iff] at h
    obtain ⟨⟨us', r'⟩, hr, he⟩ := h
    simp at he
    have := ih hr
    simp [← he.2]
    omega
  | case6 => simp at h
  | case7 c r _ _ _ _ ih =>
    simp only [bind, Option.bind_eq_some_iff] at h
    obtain ⟨⟨us', r'⟩, hr, he⟩ := h
    simp at he
    have := ih hr
    simp [← he.2]
    omega

theorem wholePart?_length {ls : List Letter} {ds : List Char} {rest : List Letter}
    (h : wholePart? ls = some (ds, rest)) : rest.length < ls.length := by
  unfold wholePart? at h
  split at h
  · simp at h; simp [← h.2]
  · next l ls' _ =>
    split at h
    · next hd =>
      have := length_digitRun_lt ls' hd
      simp at h
      rw [h] at this
      exact this
    · simp at h
  · simp at h

theorem fraction?_length {ls : List Letter} {ds : List Char} {rest : List Letter}
    (h : fraction? ls = some (ds, rest)) : rest.length ≤ ls.length := by
  unfold fraction? at h
  split at h
  · next r =>
    have := length_digitRun_le r
    split at h
    · simp at h
    · next hs =>
      simp at h
      rw [h] at this
      simp at this ⊢
      omega
  · simp at h; simp [← h.2]

theorem exponentDigits?_length {negative : Bool} {ls : List Letter} {n : Int} {rest : List Letter}
    (h : exponentDigits? negative ls = some (n, rest)) : rest.length ≤ ls.length := by
  unfold exponentDigits? at h
  have := length_digitRun_le ls
  split at h
  · simp at h
  · next hs =>
    simp at h
    rw [hs] at this
    simpa [← h.2] using this

theorem exponent?_length {ls : List Letter} {e : Option Int} {rest : List Letter}
    (h : exponent? ls = some (e, rest)) : rest.length ≤ ls.length := by
  unfold exponent? at h
  split at h
  · next l r =>
    split at h
    · simp only [Option.map_eq_some_iff] at h
      obtain ⟨⟨n, after⟩, hf, he⟩ := h
      simp at he
      rw [← he.2]
      split at hf
      all_goals
        have := exponentDigits?_length hf
        simp at this ⊢
        omega
    · simp at h; simp [← h.2]
  · simp at h; simp [← h.2]

theorem number?_length {negative : Bool} {ls : List Letter} {t : Token} {rest : List Letter}
    (h : number? negative ls = some (t, rest)) : rest.length < ls.length := by
  unfold number? at h
  simp only [bind, Option.bind_eq_some_iff] at h
  obtain ⟨⟨w, r₁⟩, h₁, ⟨f, r₂⟩, h₂, ⟨e, r₃⟩, h₃, h₄⟩ := h
  have l₁ := wholePart?_length h₁
  have l₂ := fraction?_length h₂
  have l₃ := exponent?_length h₃
  simp at h₄
  simp only at l₁ l₂ l₃
  rw [← h₄.2]
  omega

theorem literal?_length {word : String} {token t : Token} {ls rest : List Letter}
    (h : literal? word token ls = some (t, rest)) : rest.length ≤ ls.length := by
  unfold literal? dropStart? at h
  split at h
  · simp at h; simp [← h.2]
  · simp at h

/-- A token takes at least one letter. -/
theorem next?_length {ls : List Letter} {t : Token} {rest : List Letter}
    (h : next? ls = some (t, rest)) : rest.length < ls.length := by
  unfold next? at h
  split at h
  · split at h
    case h_7 =>
      simp only [Option.map_eq_some_iff] at h
      obtain ⟨⟨us, r⟩, hu, he⟩ := h
      have := stringPieces?_length hu
      simp at he
      simp [← he.2]
      omega
    case h_8 =>
      have := number?_length h
      simp at this ⊢
      omega
    case h_9 => have := literal?_length h; simp; omega
    case h_10 => have := literal?_length h; simp; omega
    case h_11 => have := literal?_length h; simp; omega
    case h_12 => exact number?_length h
    all_goals simp at h; simp [← h.2]
  · simp at h

/-- The tokens of a text, if it consists of tokens and blanks alone. -/
def all? (ls : List Letter) : Option (List Token) :=
  match ls with
  | [] => some []
  | l :: rest =>
    if l.any isSpace then all? rest
    else
      match _h : next? (l :: rest) with
      | none => none
      | some (t, after) => (all? after).map (t :: ·)
termination_by ls.length
decreasing_by
  · simp
  · exact next?_length (by assumption)

/-! ## Writing -/

/-- A character of a string as it is written: quotes, backslashes and control characters are
escaped, everything else stands for itself. -/
def escaped (c : Char) : List Char :=
  if c = '"' then ['\\', '"']
  else if c = '\\' then ['\\', '\\']
  else if c = '\x08' then ['\\', 'b']
  else if c = '\t' then ['\\', 't']
  else if c = '\n' then ['\\', 'n']
  else if c = '\x0c' then ['\\', 'f']
  else if c = '\r' then ['\\', 'r']
  else if c.toNat < 0x20 then ['\\', 'u'] ++ fixedHex 4 c.toNat
  else [c]

/-- A text between quotes. -/
def quoted (s : String) : List Char :=
  '"' :: s.toList.flatMap escaped ++ ['"']

/-- A token as it is written. -/
def chars : Token → List Char
  | .openArray => ['[']
  | .closeArray => [']']
  | .openObject => ['\x7b']
  | .closeObject => ['\x7d']
  | .comma => [',']
  | .colon => [':']
  | .null => "null".toList
  | .bool true => "true".toList
  | .bool false => "false".toList
  | .number (.integer i) => integerText i
  | .number (.real s places e) => integerText s ++ 'e' :: integerText (e - places)
  | .text s => quoted s
  | .broken _ => quoted ""

end Token

end Latchkey.Json
