/-!
# Base64 without padding

Bytes as characters of an alphabet of sixty-four, six bits to a character. Reading is strict: a
text of one character too many, or with bits set that no byte uses, is refused.
`ofSextets?_sextets` says that every sequence of bytes is read back from its six-bit numbers.
-/

namespace Latchkey.Text.Base64

/-- The two last characters of the alphabet; the first sixty-two are letters and digits. -/
structure Alphabet where
  c62 : Char
  c63 : Char

/-- The alphabet of stored digests. -/
def standard : Alphabet := ⟨'+', '/'⟩

/-- The alphabet of access tokens, which may stand in a URL. -/
def urlSafe : Alphabet := ⟨'-', '_'⟩

/-- The character that stands for six bits. -/
def Alphabet.char (a : Alphabet) (n : Nat) : Char :=
  if n < 26 then Char.ofNat ('A'.toNat + n)
  else if n < 52 then Char.ofNat ('a'.toNat + (n - 26))
  else if n < 62 then Char.ofNat ('0'.toNat + (n - 52))
  else if n = 62 then a.c62
  else a.c63

/-- The six bits that a character stands for. -/
def Alphabet.value? (a : Alphabet) (c : Char) : Option Nat :=
  if 'A' ≤ c && c ≤ 'Z' then some (c.toNat - 'A'.toNat)
  else if 'a' ≤ c && c ≤ 'z' then some (c.toNat - 'a'.toNat + 26)
  else if '0' ≤ c && c ≤ '9' then some (c.toNat - '0'.toNat + 52)
  else if c = a.c62 then some 62
  else if c = a.c63 then some 63
  else none

/-- Bytes as numbers of six bits; the last number of an incomplete triple is filled with zeros. -/
def sextets : List UInt8 → List Nat
  | [] => []
  | [x] => [x.toNat / 4, x.toNat % 4 * 16]
  | [x, y] => [x.toNat / 4, x.toNat % 4 * 16 + y.toNat / 16, y.toNat % 16 * 4]
  | x :: y :: z :: rest =>
    x.toNat / 4 :: (x.toNat % 4 * 16 + y.toNat / 16) ::
      (y.toNat % 16 * 4 + z.toNat / 64) :: z.toNat % 64 :: sextets rest

/-- The bytes of numbers of six bits. Bits behind the last byte must be zero. -/
def ofSextets? : List Nat → Option (List UInt8)
  | [] => some []
  | [_] => none
  | [a, b] => if b % 16 = 0 then some [UInt8.ofNat (a * 4 + b / 16)] else none
  | [a, b, c] =>
    if c % 4 = 0 then
      some [UInt8.ofNat (a * 4 + b / 16), UInt8.ofNat (b % 16 * 16 + c / 4)]
    else none
  | a :: b :: c :: d :: rest =>
    (ofSextets? rest).map fun bs =>
      UInt8.ofNat (a * 4 + b / 16) :: UInt8.ofNat (b % 16 * 16 + c / 4) ::
        UInt8.ofNat (c % 4 * 64 + d) :: bs

/-- Bytes written in an alphabet. -/
def encode (a : Alphabet) (bs : List UInt8) : List Char :=
  (sextets bs).map a.char

/-- The bytes that a text in an alphabet stands for. -/
def decode? (a : Alphabet) (cs : List Char) : Option (List UInt8) :=
  (cs.mapM a.value?).bind ofSextets?

theorem ofSextets?_sextets (bs : List UInt8) : ofSextets? (sextets bs) = some bs := by
  fun_induction sextets bs with
  | case1 => rfl
  | case2 x =>
    have := x.toNat_lt
    have h : x.toNat / 4 * 4 + x.toNat % 4 * 16 / 16 = x.toNat := by omega
    have h' : x.toNat % 4 * 16 % 16 = 0 := by omega
    simp only [ofSextets?, h, h', if_true, UInt8.ofNat_toNat]
  | case3 x y =>
    have := x.toNat_lt
    have := y.toNat_lt
    have h₁ : x.toNat / 4 * 4 + (x.toNat % 4 * 16 + y.toNat / 16) / 16 = x.toNat := by omega
    have h₂ : (x.toNat % 4 * 16 + y.toNat / 16) % 16 * 16 + y.toNat % 16 * 4 / 4 = y.toNat := by
      omega
    have h₃ : y.toNat % 16 * 4 % 4 = 0 := by omega
    simp only [ofSextets?, h₁, h₂, h₃, if_true, UInt8.ofNat_toNat]
  | case4 x y z rest ih =>
    have := x.toNat_lt
    have := y.toNat_lt
    have := z.toNat_lt
    have h₁ : x.toNat / 4 * 4 + (x.toNat % 4 * 16 + y.toNat / 16) / 16 = x.toNat := by omega
    have h₂ : (x.toNat % 4 * 16 + y.toNat / 16) % 16 * 16 + (y.toNat % 16 * 4 + z.toNat / 64) / 4 =
        y.toNat := by omega
    have h₃ : (y.toNat % 16 * 4 + z.toNat / 64) % 4 * 64 + z.toNat % 64 = z.toNat := by omega
    simp only [ofSextets?, ih, h₁, h₂, h₃, Option.map_some, UInt8.ofNat_toNat]

end Latchkey.Text.Base64
