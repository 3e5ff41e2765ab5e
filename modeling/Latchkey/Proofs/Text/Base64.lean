import Latchkey.Text.Base64

/-!
# Base64 is read back

In both alphabets each character stands for the number that it is written for. So bytes are what
their own text stands for, and a character that is in no alphabet is in no text.
-/

namespace Latchkey.Text.Base64

/-- Each character stands for the number that it is written for. -/
def Alphabet.IsLawful (a : Alphabet) : Prop :=
  ∀ n < 64, a.value? (a.char n) = some n

theorem isLawful_standard : standard.IsLawful := by
  have hall : ∀ n : Fin 64, standard.value? (standard.char n.val) = some n.val := by decide
  exact fun n hn => hall ⟨n, hn⟩

theorem isLawful_urlSafe : urlSafe.IsLawful := by
  have hall : ∀ n : Fin 64, urlSafe.value? (urlSafe.char n.val) = some n.val := by decide
  exact fun n hn => hall ⟨n, hn⟩

/-! ## Numbers of six bits -/

theorem sextets_lt {bs : List UInt8} {n : Nat} (h : n ∈ sextets bs) : n < 64 := by
  fun_induction sextets bs with
  | case1 => cases h
  | case2 x =>
    have := x.toNat_lt
    simp only [List.mem_cons, List.not_mem_nil, or_false] at h
    omega
  | case3 x y =>
    have := x.toNat_lt
    have := y.toNat_lt
    simp only [List.mem_cons, List.not_mem_nil, or_false] at h
    omega
  | case4 x y z rest ih =>
    have := x.toNat_lt
    have := y.toNat_lt
    have := z.toNat_lt
    simp only [List.mem_cons] at h
    rcases h with h | h | h | h | h
    · omega
    · omega
    · omega
    · omega
    · exact ih h

/-- Three bytes make four characters, and what is left over as many as it needs. -/
theorem length_encode (a : Alphabet) (bs : List UInt8) :
    (encode a bs).length = (4 * bs.length + 2) / 3 := by
  rw [encode, List.length_map]
  fun_induction sextets bs with
  | case1 => rfl
  | case2 x => simp
  | case3 x y => simp
  | case4 x y z rest ih =>
    simp only [List.length_cons, ih]
    omega

/-! ## Texts -/

variable {a : Alphabet}

/-- Bytes are what their own text stands for. -/
theorem decode?_encode (ha : a.IsLawful) (bs : List UInt8) :
    decode? a (encode a bs) = some bs := by
  have hvalues : ∀ ns : List Nat, (∀ n ∈ ns, n < 64) → (ns.map a.char).mapM a.value? = some ns := by
    intro ns
    induction ns with
    | nil => intro _; rfl
    | cons n ns ih =>
      intro h
      rw [List.map_cons, List.mapM_cons, ha n (h n List.mem_cons_self),
        ih fun m hm => h m (List.mem_cons_of_mem _ hm)]
      rfl
  rw [decode?, encode, hvalues _ fun n => sextets_lt, Option.bind_some, ofSextets?_sextets]

/-- Every character of a text stands for a number. -/
theorem isSome_value?_of_mem_encode (ha : a.IsLawful) {bs : List UInt8} {c : Char}
    (h : c ∈ encode a bs) : (a.value? c).isSome = true := by
  obtain ⟨n, hn, rfl⟩ := List.mem_map.1 h
  rw [ha n (sextets_lt hn), Option.isSome_some]

theorem not_mem_encode (ha : a.IsLawful) {c : Char} (hc : a.value? c = none) (bs : List UInt8) :
    c ∉ encode a bs := by
  intro h
  have hsome := isSome_value?_of_mem_encode ha h
  rw [hc] at hsome
  cases hsome

end Latchkey.Text.Base64
