import Latchkey.Net.Network
import Latchkey.Proofs.Net.AddressText

/-!
# Texts of networks

One network can be written in several ways: an address alone stands for itself, and a length behind
a slash is a number, or a netmask where the address is of the fourth version. `Denotes` lists them;
a text is read as a network exactly if it denotes it.
-/

namespace Latchkey.Net

open Text

/-! ## Netmasks -/

/-- A list of bits is a number of ones and then zeros exactly if nothing but zeros follows its
leading ones. -/
theorem eq_ones_append_zeros_iff (bs : List Bool) (n : Nat) :
    bs = List.replicate n true ++ List.replicate (bs.length - n) false ↔
      (bs.takeWhile id).length = n ∧ (bs.dropWhile id).any id = false := by
  constructor
  · intro h
    generalize bs.length - n = m at h
    rw [h]
    simp
  · rintro ⟨rfl, hzeros⟩
    have hones : bs.takeWhile id = List.replicate (bs.takeWhile id).length true :=
      List.eq_replicate_iff.2 ⟨rfl, List.all_eq_true.1 List.all_takeWhile⟩
    have hlength : (bs.dropWhile id).length = bs.length - (bs.takeWhile id).length := by
      have hsplit := congrArg List.length (List.takeWhile_append_dropWhile (p := id) (l := bs))
      rw [List.length_append] at hsplit
      omega
    have hrest : bs.dropWhile id =
        List.replicate (bs.length - (bs.takeWhile id).length) false := by
      refine List.eq_replicate_iff.2 ⟨hlength, fun b hb => ?_⟩
      simpa using List.any_eq_false.1 hzeros b hb
    rw [← hones, ← hrest, List.takeWhile_append_dropWhile]

/-- The address is the netmask of a length: as many ones, and zeros behind them. -/
def Ipv4.IsMask (mask : Ipv4) (n : Nat) : Prop :=
  mask.bits = List.replicate n true ++ List.replicate (32 - n) false

theorem Ipv4.length_bits (ip : Ipv4) : ip.bits.length = 32 := by
  have hsum (os : List UInt8) : (os.flatMap fun o =>
      (List.range 8).map fun i => o.toNat.testBit (7 - i)).length = 8 * os.length := by
    induction os with
    | nil => rfl
    | cons o os ih =>
      rw [List.flatMap_cons, List.length_append, ih, List.length_map, List.length_range,
        List.length_cons]
      omega
  rw [bits, hsum, ip.size_eq]

namespace Network

theorem maskLength?_eq_some_iff {mask : Ipv4} {n : Nat} :
    maskLength? mask = some n ↔ mask.IsMask n := by
  have hiff := eq_ones_append_zeros_iff mask.bits n
  rw [mask.length_bits] at hiff
  rw [Ipv4.IsMask, hiff]
  unfold maskLength?
  cases (mask.bits.dropWhile id).any id <;> simp

/-! ## The ways to write a network -/

theorem length?_eq_some_iff {width : Nat} (hwidth : width < 256) {cs : List Char} {n : Nat} :
    length? width cs = some n ↔ SpellsNumber cs n ∧ n ≤ width := by
  have hsome : length? width cs = some n ↔ unsigned? 256 cs = some n ∧ n ≤ width := by
    unfold length?
    cases unsigned? 256 cs with
    | none => simp
    | some m =>
      simp only [Option.bind_eq_bind, Option.bind_some, Option.ite_none_right_eq_some,
        Option.some.injEq]
      exact ⟨fun ⟨hm, heq⟩ => ⟨heq, heq ▸ hm⟩, fun ⟨heq, hn⟩ => ⟨heq ▸ hn, heq⟩⟩
  rw [hsome, unsigned?_eq_some_iff, and_assoc]
  exact and_congr_right fun _ => ⟨And.right, fun hn => ⟨by omega, hn⟩⟩

/-- No number is the text of an address of the fourth version, which has dots. -/
theorem ofChars?_of_spellsNumber {cs : List Char} {n : Nat} (h : SpellsNumber cs n) :
    Ipv4.ofChars? cs = none := by
  cases hip : Ipv4.ofChars? cs with
  | none => rfl
  | some ip =>
    rcases isDigit_of_spellsNumber h (Ipv4.dot_mem_of_ofChars? hip) with hdot | hdot
    · cases hdot
    · cases hdot

/-- The ways to write a network: its address alone, if all bits count; a number of bits behind a
slash; or, for an address of the fourth version, a netmask behind a slash. -/
inductive Denotes : List Char → Network → Prop where
  | alone {cs : List Char} {a : Address} (ha : Address.ofChars? cs = some a) :
      Denotes cs ⟨a, a.width⟩
  | sized {cs size : List Char} {a : Address} {n : Nat} (ha : Address.ofChars? cs = some a)
      (hsize : SpellsNumber size n) (hn : n ≤ a.width) : Denotes (cs ++ '/' :: size) ⟨a, n⟩
  | masked {cs size : List Char} {ip mask : Ipv4} {n : Nat}
      (ha : Address.ofChars? cs = some (.v4 ip)) (hsize : Ipv4.ofChars? size = some mask)
      (hmask : mask.IsMask n) :
      Denotes (cs ++ '/' :: size) ⟨.v4 ip, n⟩

/-- The length that a text states behind an address and a slash. -/
def lengthBehind? (a : Address) (size : List Char) : Option Nat :=
  match a with
  | .v4 _ => v4Length? size
  | .v6 _ => length? 128 size

theorem lengthBehind?_eq_some_iff {a : Address} {size : List Char} {n : Nat} :
    lengthBehind? a size = some n ↔ SpellsNumber size n ∧ n ≤ a.width ∨
      ∃ ip mask, a = .v4 ip ∧ Ipv4.ofChars? size = some mask ∧ mask.IsMask n := by
  cases a with
  | v6 ip => simp [lengthBehind?, length?_eq_some_iff, Address.width]
  | v4 ip =>
    unfold lengthBehind? v4Length?
    cases hmask : Ipv4.ofChars? size with
    | none => simp [length?_eq_some_iff, Address.width]
    | some mask =>
      have hnot : ¬SpellsNumber size n := fun h => by
        rw [ofChars?_of_spellsNumber h] at hmask
        cases hmask
      simp [maskLength?_eq_some_iff, hnot]

/-- A text with one slash is read in two parts. -/
theorem ofChars?_of_pieces {cs ip size : List Char} (h : pieces '/' cs = [ip, size]) :
    ofChars? cs = (Address.ofChars? ip).bind fun a => (lengthBehind? a size).map (mk a) := by
  simp only [ofChars?, h]
  refine congrArg _ (funext fun a => ?_)
  cases a with
  | v4 ip => cases hsize : v4Length? size <;> simp [lengthBehind?, hsize]
  | v6 ip => cases hsize : length? 128 size <;> simp [lengthBehind?, hsize]

theorem slash_not_mem_of_ofChars? {cs : List Char} {a : Address}
    (h : Address.ofChars? cs = some a) : '/' ∉ cs := by
  intro hslash
  have := Address.isAddressChar_of_ofChars? h hslash
  cases this

/-- An address and a length behind one slash are the network of both. -/
theorem ofChars?_append {cs size : List Char} {a : Address} {n : Nat}
    (ha : Address.ofChars? cs = some a) (hslash : '/' ∉ size)
    (hn : lengthBehind? a size = some n) : ofChars? (cs ++ '/' :: size) = some ⟨a, n⟩ := by
  have hpieces : pieces '/' (cs ++ '/' :: size) = [cs, size] := by
    rw [pieces_append, pieces_of_not_mem (slash_not_mem_of_ofChars? ha), pieces_of_not_mem hslash]
    rfl
  rw [ofChars?_of_pieces hpieces, ha, Option.bind_some, hn]
  rfl

/-- A text that is read as a network is one of the ways to write it. -/
theorem denotes_of_ofChars? {cs : List Char} {n : Network} (h : ofChars? cs = some n) :
    Denotes cs n := by
  have hglue := glue_pieces '/' cs
  unfold ofChars? at h
  split at h
  · next ip hpieces =>
    obtain ⟨a, ha, hn⟩ := Option.bind_eq_some_iff.1 h
    rw [hpieces] at hglue
    obtain rfl : ip = cs := hglue
    obtain rfl : Network.mk a a.width = n := Option.some.inj hn
    exact .alone ha
  · next ip size hpieces =>
    rw [hpieces] at hglue
    obtain rfl : ip ++ '/' :: size = cs := hglue
    have hread := (ofChars?_of_pieces hpieces).symm.trans
      (by simpa only [ofChars?, hpieces] using h)
    obtain ⟨a, ha, hlength⟩ := Option.bind_eq_some_iff.1 hread
    obtain ⟨m, hm, rfl⟩ := Option.map_eq_some_iff.1 hlength
    rcases lengthBehind?_eq_some_iff.1 hm with ⟨hsize, hle⟩ | ⟨v4, mask, rfl, hsize, hmask⟩
    · exact .sized ha hsize hle
    · exact .masked ha hsize hmask
  · cases h

/-- A text is read as a network exactly if it is one of the ways to write it. -/
theorem ofChars?_eq_some_iff {cs : List Char} {n : Network} :
    ofChars? cs = some n ↔ Denotes cs n := by
  refine ⟨denotes_of_ofChars?, fun h => ?_⟩
  cases h with
  | alone ha =>
    simp only [ofChars?, pieces_of_not_mem (slash_not_mem_of_ofChars? ha), ha]
    rfl
  | sized ha hsize hn =>
    refine ofChars?_append ha (fun hslash => ?_) (lengthBehind?_eq_some_iff.2 (.inl ⟨hsize, hn⟩))
    rcases isDigit_of_spellsNumber hsize hslash with h | h
    · cases h
    · cases h
  | masked ha hsize hmask =>
    refine ofChars?_append ha (fun hslash => ?_)
      (lengthBehind?_eq_some_iff.2 (.inr ⟨_, _, rfl, hsize, hmask⟩))
    rcases Ipv4.mem_of_ofChars? hsize hslash with h | h
    · cases h
    · cases h

end Network

end Latchkey.Net
