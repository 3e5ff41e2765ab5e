import Latchkey.Json.Writer
import Latchkey.Proofs.Text.Cutting
import Latchkey.Proofs.Text.Numbers

/-!
# Values that are read back from their texts

A value without fractions, exponents and broken strings is what its own text is read as. The text
is cut into the tokens it was written from, each of which is told from what follows it: strings by
their closing quote, numbers because punctuation or nothing comes behind them.
-/

namespace Latchkey.Json

open Text

namespace Token

/-! ## Strings -/

/-- A character that is written as it is. -/
theorem stringPieces?_plain {c : Char} (hquote : c ≠ '"') (hback : c ≠ '\\')
    (hcontrol : ¬ c.toNat < 0x20) (rest : List Letter) :
    stringPieces? (some c :: rest) =
      (stringPieces? rest).map fun found => (.char c :: found.1, found.2) := by
  rw [stringPieces?.eq_def]
  split
  · next h => cases h
  · next h => cases h; exact absurd rfl hquote
  · next h => cases h; exact absurd rfl hback
  · next h => cases h; exact absurd rfl hback
  · next h => cases h
  · next h =>
    cases h
    rw [if_neg (by simp [hcontrol, hback])]
    cases stringPieces? rest <;> rfl

/-- A character that is written with a letter of its own. -/
theorem stringPieces?_short {e c : Char} (h : shortEscape? e = some c) (rest : List Letter) :
    stringPieces? (some '\\' :: some e :: rest) =
      (stringPieces? rest).map fun found => (.char c :: found.1, found.2) := by
  have hu : e ≠ 'u' := by rintro rfl; cases h
  rw [stringPieces?.eq_def]
  split
  · next h => cases h
  · next h => cases h
  · next h => cases h; exact absurd rfl hu
  · next h' =>
    cases h'
    rw [h]
    cases stringPieces? rest <;> rfl
  · next h => cases h
  · next hne h' => cases h'; exact absurd rfl (hne e rest rfl)

/-- A control character that is written by its number. -/
theorem stringPieces?_control {n : Nat} (h : n < 0x20) (rest : List Letter) :
    stringPieces? (lettersOf (['\\', 'u'] ++ fixedHex 4 n) ++ rest) =
      (stringPieces? rest).map fun found => (.escape n :: found.1, found.2) := by
  have hhex : ofHex? (fixedHex 4 n) = some n :=
    ofHex?_fixedHex (by decide) (Nat.lt_trans h (by decide))
  simp only [fixedHex, List.nil_append, List.cons_append] at hhex ⊢
  simp only [lettersOf, List.map_cons, List.map_nil, List.cons_append, List.nil_append,
    stringPieces?, hhex]
  cases stringPieces? rest <;> rfl

/-- The ways in which a piece of a string can stand for a character. -/
inductive Denotes : Piece → Char → Prop where
  | char (c : Char) : Denotes (.char c) c
  | control {c : Char} (h : c.toNat < 0x20) : Denotes (.escape c.toNat) c

/-- Every character of a string is read back, whether it was escaped or not. -/
theorem stringPieces?_escaped (c : Char) (rest : List Letter) :
    ∃ p, Denotes p c ∧ stringPieces? (lettersOf (escaped c) ++ rest) =
      (stringPieces? rest).map fun found => (p :: found.1, found.2) := by
  have short {e : Char} (h : shortEscape? e = some c) := stringPieces?_short h rest
  unfold escaped
  split
  · next h => exact ⟨.char c, .char c, short (by rw [h]; rfl)⟩
  split
  · next h => exact ⟨.char c, .char c, short (by rw [h]; rfl)⟩
  split
  · next h => exact ⟨.char c, .char c, short (by rw [h]; rfl)⟩
  split
  · next h => exact ⟨.char c, .char c, short (by rw [h]; rfl)⟩
  split
  · next h => exact ⟨.char c, .char c, short (by rw [h]; rfl)⟩
  split
  · next h => exact ⟨.char c, .char c, short (by rw [h]; rfl)⟩
  split
  · next h => exact ⟨.char c, .char c, short (by rw [h]; rfl)⟩
  split
  · next h => exact ⟨.escape c.toNat, .control h, stringPieces?_control h rest⟩
  · next hquote hback _ _ _ _ _ hcontrol =>
    exact ⟨.char c, .char c, stringPieces?_plain hquote hback hcontrol rest⟩

theorem join?_cons {p : Piece} {c : Char} (h : Denotes p c) (ps : List Piece) :
    join? (p :: ps) = (join? ps).map (c :: ·) := by
  cases h with
  | char c => rfl
  | control h =>
    have hhigh : isHighHalf c.toNat = false := by simp [isHighHalf]; omega
    have hlow : isLowHalf c.toNat = false := by simp [isLowHalf]; omega
    cases ps with
    | nil => simp [join?, hhigh, hlow]
    | cons q qs => cases q <;> simp [join?, hhigh, hlow]

/-- A string is read up to its closing quote, and its pieces stand for its characters. -/
theorem stringPieces?_quoted (cs : List Char) (rest : List Letter) :
    ∃ ps, join? ps = some cs ∧
      stringPieces? (lettersOf (cs.flatMap escaped) ++ some '"' :: rest) = some (ps, rest) := by
  induction cs with
  | nil => exact ⟨[], rfl, rfl⟩
  | cons c cs ih =>
    obtain ⟨ps, hjoin, hread⟩ := ih
    obtain ⟨p, hp, hstep⟩ :=
      stringPieces?_escaped c (lettersOf (cs.flatMap escaped) ++ some '"' :: rest)
    refine ⟨p :: ps, by rw [join?_cons hp, hjoin, Option.map_some], ?_⟩
    rw [List.flatMap_cons, lettersOf, List.map_append, List.append_assoc]
    rw [hread, Option.map_some] at hstep
    exact hstep

/-! ## Numbers -/

/-- No number goes on here. -/
def EndsNumber (ls : List Letter) : Prop :=
  ∀ c, ls.head? = some (some c) → isDigit c = false ∧ c ∉ ['.', 'e', 'E']

theorem digitRun_append {ds : List Char} (hds : ∀ d ∈ ds, isDigit d = true) {rest : List Letter}
    (h : EndsNumber rest) : digitRun (lettersOf ds ++ rest) = (ds, rest) := by
  have hrun : ∀ l ∈ lettersOf ds, l.any isDigit = true := by
    intro l hl
    obtain ⟨d, hd, rfl⟩ := List.mem_map.1 hl
    exact hds d hd
  have hstop : rest.takeWhile (·.any isDigit) = [] ∧ rest.dropWhile (·.any isDigit) = rest := by
    cases rest with
    | nil => exact ⟨rfl, rfl⟩
    | cons l ls =>
      have hl : l.any isDigit = false := by
        cases l with
        | none => rfl
        | some c => exact (h c rfl).1
      exact ⟨by rw [List.takeWhile_cons, hl]; rfl, by rw [List.dropWhile_cons, hl]; rfl⟩
  rw [digitRun, List.takeWhile_append_of_pos hrun, List.dropWhile_append_of_pos hrun, hstop.1,
    hstop.2, List.append_nil, lettersOf, List.filterMap_map]
  simp

theorem wholePart?_digits (n : Nat) {rest : List Letter} (h : EndsNumber rest) :
    wholePart? (lettersOf (digits n) ++ rest) = some (digits n, rest) := by
  have hall : ∀ d ∈ digits n, isDigit d = true := fun d => isDigit_of_mem_digits
  by_cases hn : 0 < n
  · have hhead := head?_digits hn
    have hrun := digitRun_append hall h
    obtain ⟨d, ds, hcons⟩ := List.exists_cons_of_ne_nil (digits_ne_nil n)
    rw [hcons] at hall hhead hrun ⊢
    have hd := hall d List.mem_cons_self
    unfold wholePart?
    split
    · next heq => cases heq; exact absurd rfl hhead
    · next heq => cases heq; rw [Option.any_some, hd, if_pos rfl]; exact congrArg some hrun
    · next heq => cases heq
  · have hzero : n = 0 := by omega
    subst hzero
    rfl

theorem fraction?_of_endsNumber {rest : List Letter} (h : EndsNumber rest) :
    fraction? rest = some ([], rest) := by
  unfold fraction?
  split
  · exact absurd (by decide) (h '.' rfl).2
  · rfl

theorem exponent?_of_endsNumber {rest : List Letter} (h : EndsNumber rest) :
    exponent? rest = some (none, rest) := by
  cases rest with
  | nil => rfl
  | cons l ls =>
    have hsmall : l ≠ some 'e' := by rintro rfl; exact absurd (by decide) (h 'e' rfl).2
    have hgreat : l ≠ some 'E' := by rintro rfl; exact absurd (by decide) (h 'E' rfl).2
    unfold exponent?
    exact if_neg (by simp [hsmall, hgreat])

/-- The digits of a number are read as this number, or as its negative if a sign came before. -/
theorem number?_digits (negative : Bool) (n : Nat) (hn : negative = true → 0 < n)
    {rest : List Letter} (h : EndsNumber rest) :
    number? negative (lettersOf (digits n) ++ rest) =
      some (.number (.integer (if negative then -n else n)), rest) := by
  have hvalue : Nat.ofDigitChars 10 (digits n ++ []) 0 = n := by
    rw [List.append_nil]
    exact Nat.ofDigitChars_ten_toDigits
  have hsigned : assemble negative (digits n) [] none =
      .integer (if negative then -(n : Int) else n) := by
    unfold assemble
    rw [hvalue]
    refine if_pos ?_
    cases negative with
    | false => rfl
    | true => have := hn rfl; simp; omega
  simp only [number?, wholePart?_digits n h, fraction?_of_endsNumber h,
    exponent?_of_endsNumber h, hsigned, bind, Option.bind_some, pure]

/-! ## One token -/

/-- The token is written as what it is. -/
def isPlain : Token → Bool
  | .number (.real ..) | .broken _ => false
  | _ => true

theorem next?_digit {c : Char} (h : isDigit c = true) (ls : List Letter) :
    next? (some c :: ls) = number? false (some c :: ls) := by
  unfold next?
  dsimp only
  split
  case h_12 => rfl
  all_goals exact absurd h (by decide)

/-- The integer at the front of a text. -/
theorem next?_integer (i : Int) {rest : List Letter} (h : EndsNumber rest) :
    next? (lettersOf (integerText i) ++ rest) = some (.number (.integer i), rest) := by
  cases i with
  | ofNat n =>
    have hread := number?_digits false n (by simp) h
    obtain ⟨d, ds, hcons⟩ := List.exists_cons_of_ne_nil (digits_ne_nil n)
    have hd : isDigit d = true := isDigit_of_mem_digits (hcons ▸ List.mem_cons_self)
    rw [hcons] at hread
    rw [integerText, hcons]
    exact (next?_digit hd _).trans hread
  | negSucc n => exact number?_digits true (n + 1) (by simp) h

/-- A token is the first of a text that it was written at the front of, if behind a number no
number goes on. -/
theorem next?_chars {t : Token} (ht : t.isPlain = true) {rest : List Letter}
    (h : (∃ n, t = .number n) → EndsNumber rest) :
    next? (lettersOf t.chars ++ rest) = some (t, rest) := by
  cases t with
  | number n =>
    cases n with
    | integer i => exact next?_integer i (h ⟨_, rfl⟩)
    | real s places e => cases ht
  | text s =>
    obtain ⟨ps, hjoin, hread⟩ := stringPieces?_quoted s.toList rest
    have hletters : lettersOf (quoted s) ++ rest =
        some '"' :: (lettersOf (s.toList.flatMap escaped) ++ some '"' :: rest) := by
      simp [quoted, lettersOf]
    simp only [chars, hletters, next?, hread, Option.map_some, ofPieces, hjoin,
      String.ofList_toList]
  | broken passed => cases ht
  | bool b => cases b <;> rfl
  | _ => rfl

theorem all?_of_next? {ls rest : List Letter} {t : Token} (h : next? ls = some (t, rest)) :
    all? ls = (all? rest).map (t :: ·) := by
  cases ls with
  | nil => cases h
  | cons l ls =>
    have hspace : ¬ l.any isSpace = true := by
      intro hl
      cases l with
      | none => cases hl
      | some c =>
        simp only [Option.any_some, isSpace, Bool.or_eq_true, beq_iff_eq] at hl
        rcases hl with ((rfl | rfl) | rfl) | rfl <;> cases h
    rw [all?, if_neg hspace]
    split
    · next hnone => rw [h] at hnone; cases hnone
    · next hsome => rw [h] at hsome; cases hsome; rfl

/-- A token at the front of a text is the first of its tokens. -/
theorem all?_chars {t : Token} (ht : t.isPlain = true) {rest : List Letter}
    (h : (∃ n, t = .number n) → EndsNumber rest) :
    all? (lettersOf t.chars ++ rest) = (all? rest).map (t :: ·) :=
  all?_of_next? (next?_chars ht h)

end Token

/-! ## Values -/

mutual

/-- All numbers in the value are integers and all its strings denote texts. -/
def isPlain : Json → Bool
  | .number (.real ..) | .broken _ => false
  | .array items => arePlain items
  | .object members => haveOnlyPlain members
  | _ => true

/-- All these items are plain. -/
def arePlain : List Json → Bool
  | [] => true
  | v :: vs => v.isPlain && arePlain vs

/-- All values of these members are plain. -/
def haveOnlyPlain : List (String × Json) → Bool
  | [] => true
  | (_, v) :: ms => v.isPlain && haveOnlyPlain ms

end

/-- The letters that tokens are written with. -/
def lettersOfTokens (ts : List Token) : List Letter :=
  lettersOf (ts.flatMap Token.chars)

theorem lettersOfTokens_append (ts us : List Token) :
    lettersOfTokens (ts ++ us) = lettersOfTokens ts ++ lettersOfTokens us := by
  simp [lettersOfTokens, lettersOf]

theorem lettersOfTokens_cons (t : Token) (ts : List Token) :
    lettersOfTokens (t :: ts) = lettersOf t.chars ++ lettersOfTokens ts := by
  simp [lettersOfTokens, lettersOf]

open Token

theorem endsNumber_cons {c : Char} (hc : isDigit c = false ∧ c ∉ ['.', 'e', 'E'])
    (ls : List Letter) : EndsNumber (some c :: ls) := by
  intro d hd
  cases hd
  exact hc

/-- The tokens in front of a text are told from the rest of it. -/
def Reads (ts : List Token) (rest : List Letter) : Prop :=
  all? (lettersOfTokens ts ++ rest) = (all? rest).map (ts ++ ·)

theorem reads_nil (rest : List Letter) : Reads [] rest := by
  simp [Reads, lettersOfTokens, lettersOf]

theorem reads_number (i : Int) {rest : List Letter} (hends : EndsNumber rest) :
    Reads [.number (.integer i)] rest := by
  have hread := all?_chars (t := .number (.integer i)) rfl fun _ => hends
  rwa [Reads, lettersOfTokens_cons, List.append_assoc]

/-- Whatever is no number is told from anything behind it. -/
theorem reads_cons {t : Token} {ts : List Token} {rest : List Letter} (ht : t.isPlain = true)
    (hnumber : ∀ n, t ≠ .number n) (h : Reads ts rest) : Reads (t :: ts) rest := by
  unfold Reads at h ⊢
  rw [lettersOfTokens_cons, List.append_assoc, all?_chars ht, h, Option.map_map]
  · rfl
  · rintro ⟨n, rfl⟩
    exact absurd rfl (hnumber n)

theorem reads_append {ts us : List Token} {rest : List Letter}
    (hts : Reads ts (lettersOfTokens us ++ rest)) (hus : Reads us rest) :
    Reads (ts ++ us) rest := by
  unfold Reads at hts hus ⊢
  rw [lettersOfTokens_append, List.append_assoc, hts, hus, Option.map_map]
  congr 1
  funext vs
  exact (List.append_assoc ts us vs).symm

mutual

theorem reads_tokens (v : Json) (hv : v.isPlain = true) {rest : List Letter}
    (hends : EndsNumber rest) : Reads v.tokens rest := by
  cases v with
  | null => exact reads_cons rfl (fun _ => nofun) (reads_nil rest)
  | bool b => exact reads_cons rfl (fun _ => nofun) (reads_nil rest)
  | text s => exact reads_cons rfl (fun _ => nofun) (reads_nil rest)
  | broken passed => cases hv
  | number n =>
    cases n with
    | integer i => exact reads_number i hends
    | real s places e => cases hv
  | array items =>
    have hclose : Reads [.closeArray] rest := reads_cons rfl (fun _ => nofun) (reads_nil rest)
    have hitems := reads_itemTokens items hv (endsNumber_cons (c := ']') (by decide) rest)
    exact reads_cons rfl (fun _ => nofun) (reads_append hitems hclose)
  | object members =>
    have hclose : Reads [.closeObject] rest := reads_cons rfl (fun _ => nofun) (reads_nil rest)
    have hmembers :=
      reads_memberTokens members hv (endsNumber_cons (c := '\x7d') (by decide) rest)
    exact reads_cons rfl (fun _ => nofun) (reads_append hmembers hclose)

theorem reads_itemTokens (vs : List Json) (hvs : arePlain vs = true) {rest : List Letter}
    (hends : EndsNumber rest) : Reads (itemTokens vs) rest := by
  match vs with
  | [] => exact reads_nil rest
  | [v] =>
    rw [arePlain, Bool.and_eq_true] at hvs
    exact reads_tokens v hvs.1 hends
  | v :: w :: vs =>
    rw [arePlain, Bool.and_eq_true] at hvs
    have hrest : Reads (.comma :: itemTokens (w :: vs)) rest :=
      reads_cons rfl (fun _ => nofun) (reads_itemTokens (w :: vs) hvs.2 hends)
    exact reads_append (reads_tokens v hvs.1 (endsNumber_cons (c := ',') (by decide) _)) hrest

theorem reads_memberTokens (ms : List (String × Json)) (hms : haveOnlyPlain ms = true)
    {rest : List Letter} (hends : EndsNumber rest) : Reads (memberTokens ms) rest := by
  match ms with
  | [] => exact reads_nil rest
  | [(s, v)] =>
    rw [haveOnlyPlain, Bool.and_eq_true] at hms
    have hvalue := reads_tokens v hms.1 hends
    exact reads_cons rfl (fun _ => nofun) (reads_cons rfl (fun _ => nofun) hvalue)
  | (s, v) :: m :: ms =>
    rw [haveOnlyPlain, Bool.and_eq_true] at hms
    have hrest : Reads (.comma :: memberTokens (m :: ms)) rest :=
      reads_cons rfl (fun _ => nofun) (reads_memberTokens (m :: ms) hms.2 hends)
    have hmembers := reads_append
      (reads_tokens v hms.1 (endsNumber_cons (c := ',') (by decide) _)) hrest
    exact reads_cons rfl (fun _ => nofun) (reads_cons rfl (fun _ => nofun) hmembers)

end

/-- A plain value is what its own text is read as. -/
theorem ofString?_toString {v : Json} (hv : v.isPlain = true) : ofString? v.toString = some v := by
  have hread : Reads v.tokens [] := reads_tokens v hv nofun
  have htext : lettersOf v.toString.toList = lettersOfTokens v.tokens ++ [] := by
    rw [toString, String.toList_ofList, List.append_nil]
    rfl
  have hnil : all? [] = some [] := by rw [all?]
  rw [ofString?, ofLetters?, htext, hread, hnil, Option.map_some, List.append_nil,
    Option.bind_some, ofTokens?_tokens]

end Latchkey.Json
