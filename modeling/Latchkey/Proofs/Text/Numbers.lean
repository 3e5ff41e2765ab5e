import Mathlib.Algebra.Group.Nat.Defs
import Mathlib.Data.List.Induction
import Latchkey.Text.Decimal
import Latchkey.Text.Hex

/-!
# Numbers in texts

The digits of a number are read back as the number, in both bases, and hold nothing but digits. What
fits a signed word is kept in it as it is and read back from its text.
-/

namespace Latchkey.Text

theorem toNat_between {a b c : Char} (h : (decide (a ≤ c) && decide (c ≤ b)) = true) :
    a.toNat ≤ c.toNat ∧ c.toNat ≤ b.toNat := by
  simpa [Char.le_def, UInt32.le_iff_toNat_le] using h

/-! ## Decimal digits -/

theorem isDigit_of_mem_digits {n : Nat} {c : Char} (h : c ∈ digits n) : isDigit c = true := by
  have hc := Nat.isDigit_of_mem_toDigits (by decide) (by decide) h
  simpa [isDigit, Char.isDigit, Char.le_def] using hc

theorem not_mem_digits {c : Char} (h : isDigit c = false) (n : Nat) : c ∉ digits n := by
  intro hc
  rw [isDigit_of_mem_digits hc] at h
  cases h

theorem digits_ne_nil (n : Nat) : digits n ≠ [] :=
  Nat.toDigits_ne_nil

theorem length_digits_le {n : Nat} (h : n < 0x100000000) : (digits n).length ≤ 10 :=
  (Nat.length_toDigits_le_iff (by decide) (by decide)).2 (Nat.lt_of_lt_of_le h (by decide))

theorem ofDigits?_digits (n : Nat) : ofDigits? (digits n) = some n := by
  have hall : (digits n).all isDigit = true :=
    List.all_eq_true.2 fun c hc => isDigit_of_mem_digits hc
  have hne : (digits n).isEmpty = false := List.isEmpty_eq_false_iff.2 (digits_ne_nil n)
  simp only [ofDigits?, hne, hall, if_true, Bool.false_eq_true, if_false]
  exact congrArg some Nat.ofDigitChars_ten_toDigits

/-- Only the digits of zero begin with a zero. -/
theorem head?_digits {n : Nat} (h : 0 < n) : (digits n).head? ≠ some '0' := by
  induction n using Nat.strongRecOn with
  | ind n ih =>
    by_cases hn : n < 10
    · have hall : ∀ m : Fin 10, 0 < m.val → (digits m.val).head? ≠ some '0' := by decide
      exact hall ⟨n, hn⟩ h
    · have hdiv : 0 < n / 10 := by omega
      have hhead := ih (n / 10) (by omega) hdiv
      have hsplit : digits n = digits (n / 10) ++ [Nat.digitChar (n % 10)] :=
        Nat.toDigits_of_base_le (by decide) (by omega)
      obtain ⟨c, cs, hcons⟩ := List.exists_cons_of_ne_nil (digits_ne_nil (n / 10))
      rw [hcons] at hhead hsplit
      rw [hsplit]
      exact hhead

theorem ofPlainDigits?_digits (n : Nat) : ofPlainDigits? (digits n) = some n := by
  have hplain : ((digits n).head? = some '0' && (digits n).length > 1) = false := by
    by_cases hn : 0 < n
    · simp [head?_digits hn]
    · have hzero : n = 0 := by omega
      subst hzero
      rfl
  unfold ofPlainDigits?
  rw [hplain]
  exact ofDigits?_digits n

theorem isDigit_of_ofDigits? {cs : List Char} {n : Nat} (h : ofDigits? cs = some n) :
    ∀ c ∈ cs, isDigit c = true := by
  unfold ofDigits? at h
  split at h
  · cases h
  · split at h
    · next hall => exact List.all_eq_true.1 hall
    · cases h

theorem isDigit_of_ofPlainDigits? {cs : List Char} {n : Nat} (h : ofPlainDigits? cs = some n) :
    ∀ c ∈ cs, isDigit c = true := by
  unfold ofPlainDigits? at h
  split at h
  · cases h
  · exact isDigit_of_ofDigits? h

theorem exists_digitChar_of_isDigit {c : Char} (h : isDigit c = true) :
    ∃ d, d < 10 ∧ c = Nat.digitChar d := by
  have hrange := toNat_between h
  have hlow : 48 ≤ c.toNat := hrange.1
  have hhigh : c.toNat ≤ 57 := hrange.2
  have hall : ∀ d : Fin 10, Char.ofNat (d.val + 48) = Nat.digitChar d.val := by decide
  refine ⟨c.toNat - 48, by omega, ?_⟩
  have hd := hall ⟨c.toNat - 48, by omega⟩
  rw [← hd, Nat.sub_add_cancel hlow, Char.ofNat_toNat]

/-- Digits are those of the number that they denote, behind zeros. -/
theorem eq_zeros_append_digits {cs : List Char} (hne : cs ≠ [])
    (hall : ∀ c ∈ cs, isDigit c = true) :
    ∃ zeros, cs = List.replicate zeros '0' ++ digits (Nat.ofDigitChars 10 cs 0) := by
  induction cs using List.reverseRecOn with
  | nil => exact absurd rfl hne
  | append_singleton cs c ih =>
    obtain ⟨d, hd, rfl⟩ := exists_digitChar_of_isDigit (hall c (by simp))
    have hlast (n : Nat) : Nat.ofDigitChars 10 [Nat.digitChar d] n = 10 * n + d := by
      rw [Nat.ofDigitChars_cons_digitChar_of_lt_ten hd, Nat.ofDigitChars_nil]
    have hsingle : digits d = [Nat.digitChar d] := Nat.toDigits_of_lt_base hd
    rw [Nat.ofDigitChars_append, hlast]
    rcases List.eq_nil_or_concat cs with rfl | hcs
    · exact ⟨0, by simp [hsingle, Nat.ofDigitChars_nil]⟩
    · obtain ⟨zeros, hzeros⟩ := ih (by rcases hcs with ⟨_, _, rfl⟩; simp)
        fun c hc => hall c (List.mem_append_left _ hc)
      generalize Nat.ofDigitChars 10 cs 0 = n at hzeros ⊢
      rw [hzeros, List.append_assoc, ← hsingle]
      -- Zero has a digit of its own, which counts as a leading one once another follows.
      rcases Nat.eq_zero_or_pos n with rfl | hn
      · refine ⟨zeros + 1, ?_⟩
        rw [List.replicate_succ', List.append_assoc, Nat.mul_zero, Nat.zero_add]
        rfl
      · exact ⟨zeros, congrArg _ (Nat.toDigits_append_toDigits (by decide) hn hd)⟩

/-- The texts of a number: its digits, behind any number of zeros. -/
theorem ofDigits?_eq_some_iff {cs : List Char} {n : Nat} :
    ofDigits? cs = some n ↔ ∃ zeros, cs = List.replicate zeros '0' ++ digits n := by
  constructor
  · intro h
    have hall := isDigit_of_ofDigits? h
    unfold ofDigits? at h
    split at h
    · cases h
    · next hne =>
      rw [if_pos (List.all_eq_true.2 hall)] at h
      rw [← Option.some.inj h]
      exact eq_zeros_append_digits (fun hnil => hne (List.isEmpty_iff.2 hnil)) hall
  · rintro ⟨zeros, rfl⟩
    have hall : (List.replicate zeros '0' ++ digits n).all isDigit = true := by
      refine List.all_eq_true.2 fun c hc => ?_
      rcases List.mem_append.1 hc with hc | hc
      · rw [List.eq_of_mem_replicate hc]
        rfl
      · exact isDigit_of_mem_digits hc
    have hne : (List.replicate zeros '0' ++ digits n).isEmpty = false := by
      simp [digits_ne_nil]
    rw [ofDigits?, hne, hall, Nat.ofDigitChars_append, Nat.ofDigitChars_replicate_zero,
      Nat.mul_zero]
    exact congrArg some Nat.ofDigitChars_ten_toDigits

/-- The text is a number in digits, with or without a plus sign and with any number of leading
zeros. -/
def SpellsNumber (cs : List Char) (n : Nat) : Prop :=
  ∃ zeros, cs = List.replicate zeros '0' ++ digits n ∨
    cs = '+' :: (List.replicate zeros '0' ++ digits n)

theorem isDigit_of_spellsNumber {cs : List Char} {n : Nat} (h : SpellsNumber cs n) {c : Char}
    (hc : c ∈ cs) : isDigit c = true ∨ c = '+' := by
  obtain ⟨zeros, h⟩ := h
  have hdigits := isDigit_of_ofDigits? (ofDigits?_eq_some_iff.2 ⟨zeros, rfl⟩ :
    ofDigits? (List.replicate zeros '0' ++ digits n) = some n)
  rcases h with rfl | rfl
  · exact .inl (hdigits c hc)
  · rcases List.mem_cons.1 hc with hc | hc
    · exact .inr hc
    · exact .inl (hdigits c hc)

theorem unsigned?_eq_some_iff {bound : Nat} {cs : List Char} {n : Nat} :
    unsigned? bound cs = some n ↔ SpellsNumber cs n ∧ n < bound := by
  have hbounded (body : List Char) : ((ofDigits? body).bind fun m =>
      if m < bound then some m else none) = some n ↔ ofDigits? body = some n ∧ n < bound := by
    cases ofDigits? body with
    | none => simp
    | some m =>
      simp only [Option.bind_some, Option.ite_none_right_eq_some, Option.some.injEq]
      exact ⟨fun ⟨hm, heq⟩ => ⟨heq, heq ▸ hm⟩, fun ⟨heq, hn⟩ => ⟨heq ▸ hn, heq⟩⟩
  unfold unsigned?
  split
  · next rest =>
    refine (hbounded rest).trans (and_congr_left fun _ => ?_)
    rw [ofDigits?_eq_some_iff]
    constructor
    · rintro ⟨zeros, rfl⟩
      exact ⟨zeros, .inr rfl⟩
    · rintro ⟨zeros, h | h⟩
      · have hdigits := isDigit_of_ofDigits? (ofDigits?_eq_some_iff.2 ⟨zeros, h⟩ :
          ofDigits? ('+' :: rest) = some n) '+' List.mem_cons_self
        cases hdigits
      · exact ⟨zeros, (List.cons.inj h).2⟩
  · next hplain =>
    refine (hbounded cs).trans (and_congr_left fun _ => ?_)
    rw [ofDigits?_eq_some_iff]
    constructor
    · rintro ⟨zeros, h⟩
      exact ⟨zeros, .inl h⟩
    · rintro ⟨zeros, h | h⟩
      · exact ⟨zeros, h⟩
      · exact absurd h (hplain _)

/-! ## Signed words -/

theorem fitsWord_iff {i : Int} :
    fitsWord i = true ↔ -0x8000000000000000 ≤ i ∧ i < 0x8000000000000000 := by
  rw [fitsWord, Bool.and_eq_true, decide_eq_true_eq, decide_eq_true_eq]

theorem fitsWord_of_nonneg {i : Int} (h : 0 ≤ i) (hlt : i < 0x8000000000000000) :
    fitsWord i = true :=
  fitsWord_iff.2 ⟨by omega, hlt⟩

theorem wrapWord_of_fitsWord {i : Int} (h : fitsWord i = true) : wrapWord i = i := by
  rw [fitsWord_iff] at h
  exact Int.bmod_eq_of_le (by omega) (by omega)

theorem fitsWord_wrapWord (i : Int) : fitsWord (wrapWord i) = true := by
  rw [fitsWord_iff]
  have hle := Int.le_bmod (x := i) (m := 0x10000000000000000) (by decide)
  have hlt := Int.bmod_lt (x := i) (m := 0x10000000000000000) (by decide)
  rw [wrapWord]
  omega

/-- Only what fits is kept as it is. -/
theorem wrapWord_eq_self_iff {i : Int} : wrapWord i = i ↔ fitsWord i = true :=
  ⟨fun h => h ▸ fitsWord_wrapWord i, wrapWord_of_fitsWord⟩

/-- It makes no difference whether a summand was wrapped before. -/
theorem wrapWord_add_wrapWord (i j : Int) : wrapWord (i + wrapWord j) = wrapWord (i + j) :=
  Int.add_bmod_bmod

/-- What is read is kept if it fits. The bounds stay closed: to compute with them is to count up to
them. -/
theorem keepWord_eq_some_iff {x : Option Int} {i : Int} :
    (x.bind fun j => if fitsWord j = true then some j else none) = some i ↔
      x = some i ∧ fitsWord i = true := by
  cases x with
  | none => simp
  | some j =>
    rw [Option.bind_some, Option.some_inj]
    constructor
    · intro h
      split at h
      · next hfits => exact ⟨Option.some.inj h, Option.some.inj h ▸ hfits⟩
      · cases h
    · rintro ⟨rfl, hfits⟩
      rw [if_pos hfits]

theorem fitsWord_of_signedWord? {cs : List Char} {i : Int} (h : signedWord? cs = some i) :
    fitsWord i = true := by
  unfold signedWord? at h
  split at h <;> exact (keepWord_eq_some_iff.1 h).2

/-- An integer of a word is read back from its text. -/
theorem signedWord?_integerText {i : Int} (h : fitsWord i = true) :
    signedWord? (integerText i) = some i := by
  cases i with
  | ofNat n =>
    have hread := ofDigits?_digits n
    obtain ⟨d, ds, hcons⟩ := List.exists_cons_of_ne_nil (digits_ne_nil n)
    have hd : isDigit d = true := isDigit_of_mem_digits (hcons ▸ List.mem_cons_self)
    rw [integerText, hcons]
    rw [hcons] at hread
    unfold signedWord?
    split
    · next heq => cases heq; exact absurd hd (by decide)
    · next heq => cases heq; exact absurd hd (by decide)
    · exact keepWord_eq_some_iff.2 ⟨by rw [hread]; rfl, h⟩
  | negSucc n =>
    unfold signedWord?
    exact keepWord_eq_some_iff.2 ⟨by rw [ofDigits?_digits]; rfl, h⟩

/-! ## Hexadecimal digits -/

theorem toNat_of_hexValue? {c : Char} (h : (hexValue? c).isSome = true) :
    0x30 ≤ c.toNat ∧ c.toNat ≤ 0x66 := by
  unfold hexValue? at h
  split at h
  · next hc => exact ⟨(toNat_between hc).1, Nat.le_trans (toNat_between hc).2 (by decide)⟩
  · split at h
    · next hc => exact ⟨Nat.le_trans (by decide) (toNat_between hc).1, (toNat_between hc).2⟩
    · split at h
      · next hc =>
        exact ⟨Nat.le_trans (by decide) (toNat_between hc).1,
          Nat.le_trans (toNat_between hc).2 (by decide)⟩
      · cases h

theorem hexValue?_digitChar {d : Nat} (h : d < 16) : hexValue? (Nat.digitChar d) = some d := by
  have hall : ∀ d : Fin 16, hexValue? (Nat.digitChar d.val) = some d.val := by decide
  exact hall ⟨d, h⟩

theorem exists_of_mem_hexDigits {n : Nat} {c : Char} (h : c ∈ hexDigits n) :
    ∃ d, d < 16 ∧ c = Nat.digitChar d := by
  induction n using Nat.strongRecOn with
  | ind n ih =>
    rw [hexDigits, Nat.toDigits_eq_if (by decide)] at h
    split at h
    · next hn => exact ⟨n, hn, List.mem_singleton.1 h⟩
    · rcases List.mem_append.1 h with h | h
      · exact ih (n / 16) (by omega) h
      · exact ⟨n % 16, Nat.mod_lt _ (by decide), List.mem_singleton.1 h⟩

theorem not_mem_hexDigits {c : Char} (h : hexValue? c = none) (n : Nat) : c ∉ hexDigits n := by
  intro hc
  obtain ⟨d, hd, rfl⟩ := exists_of_mem_hexDigits hc
  rw [hexValue?_digitChar hd] at h
  cases h

theorem hexDigits_ne_nil (n : Nat) : hexDigits n ≠ [] :=
  Nat.toDigits_ne_nil

theorem mapM_hexValue?_hexDigits (n : Nat) :
    ∃ ds, (hexDigits n).mapM hexValue? = some ds ∧ ds.foldl (fun n d => 16 * n + d) 0 = n := by
  induction n using Nat.strongRecOn with
  | ind n ih =>
    rw [hexDigits, Nat.toDigits_eq_if (by decide)]
    split
    · next hn => exact ⟨[n], by simp [hexValue?_digitChar hn], by simp⟩
    · next hn =>
      obtain ⟨ds, hds, hsum⟩ := ih (n / 16) (by omega)
      have hlast := hexValue?_digitChar (Nat.mod_lt n (by decide : 0 < 16))
      refine ⟨ds ++ [n % 16], ?_, ?_⟩
      · rw [List.mapM_append]
        rw [hexDigits] at hds
        simp [hds, hlast]
      · rw [List.foldl_append, hsum]
        simp only [List.foldl_cons, List.foldl_nil]
        omega

theorem ofHex?_hexDigits (n : Nat) : ofHex? (hexDigits n) = some n := by
  obtain ⟨ds, hds, hsum⟩ := mapM_hexValue?_hexDigits n
  have hne : (hexDigits n).isEmpty = false := List.isEmpty_eq_false_iff.2 (hexDigits_ne_nil n)
  simp only [ofHex?, hne, hds, Option.map_some, hsum, Bool.false_eq_true, if_false]

theorem mapM_hexValue?_fixedHex (width n : Nat) :
    ∃ ds, (fixedHex width n).mapM hexValue? = some ds ∧
      ds.foldl (fun n d => 16 * n + d) 0 = n % 16 ^ width := by
  induction width generalizing n with
  | zero => exact ⟨[], rfl, by simp [Nat.mod_one]⟩
  | succ width ih =>
    obtain ⟨ds, hds, hsum⟩ := ih (n / 16)
    have hlast := hexValue?_digitChar (Nat.mod_lt n (by decide : 0 < 16))
    refine ⟨ds ++ [n % 16], by simp [fixedHex, List.mapM_append, hds, hlast], ?_⟩
    rw [List.foldl_append, hsum, List.foldl_cons, List.foldl_nil, Nat.pow_succ', Nat.mod_mul,
      Nat.add_comm]

/-- A number is read back from digits that leave none of its own off. -/
theorem ofHex?_fixedHex {width n : Nat} (hwidth : 0 < width) (h : n < 16 ^ width) :
    ofHex? (fixedHex width n) = some n := by
  obtain ⟨ds, hds, hsum⟩ := mapM_hexValue?_fixedHex width n
  have hne : (fixedHex width n).isEmpty = false := by
    obtain ⟨width, rfl⟩ := Nat.exists_eq_succ_of_ne_zero (Nat.pos_iff_ne_zero.1 hwidth)
    simp [fixedHex]
  rw [Nat.mod_eq_of_lt h] at hsum
  simp only [ofHex?, hne, hds, Option.map_some, hsum, Bool.false_eq_true, if_false]

theorem length_hexDigits_le {n : Nat} (h : n < 65536) : (hexDigits n).length ≤ 4 :=
  (Nat.length_toDigits_le_iff (by decide) (by decide)).2 h

end Latchkey.Text
