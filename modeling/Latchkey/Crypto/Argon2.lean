import Latchkey.Crypto.Blake2b

/-!
# Argon2

The memory-hard function of RFC 9106 in its three variants and both versions. Memory is a matrix of
blocks of 128 words, one row to a lane, that is filled column by column over a number of passes;
every new block depends on the one before it and on another that the variant chooses.
-/

namespace Latchkey.Crypto.Argon2

open Blake2b (littleEndian bytesOf rotateRight)

/-- How the other block is chosen: by the content of memory, by position, or by position in the
first half of the first pass and by content afterwards. -/
inductive Variant where
  | d
  | i
  | id
  deriving DecidableEq, Repr

/-- The number of a variant. -/
def Variant.code : Variant → Nat
  | .d => 0
  | .i => 1
  | .id => 2

/-- The older version overwrites a block in later passes, the newer adds to it. -/
inductive Version where
  | v16
  | v19
  deriving DecidableEq, Repr

/-- The number of a version. -/
def Version.code : Version → Nat
  | .v16 => 16
  | .v19 => 19

/-- Costs: memory in blocks, passes and lanes, and how many bytes come out. -/
structure Params where
  memory : Nat
  passes : Nat
  lanes : Nat
  outputLength : Nat
  deriving DecidableEq, Repr

/-- The limits on costs: every lane has at least eight blocks. -/
def Params.isValid (p : Params) : Bool :=
  1 ≤ p.passes && 1 ≤ p.lanes && p.lanes < 0x1000000 && 8 * p.lanes ≤ p.memory &&
    p.passes < 0x100000000 && p.memory < 0x100000000 && 4 ≤ p.outputLength

/-- The length of a quarter of a lane, in blocks. -/
def Params.segment (p : Params) : Nat := p.memory / (4 * p.lanes)

/-- The length of a lane, in blocks. -/
def Params.lane (p : Params) : Nat := 4 * p.segment

/-! ## Blocks -/

/-- A thousand and twenty-four bytes as words. -/
abbrev Block := Vector UInt64 128

/-- The block of zeros. -/
def Block.zero : Block := Vector.replicate 128 0

/-- The bits in which two blocks differ. -/
def Block.xor (x y : Block) : Block := x.zipWith (· ^^^ ·) y

/-- The block of a sequence of bytes. -/
def Block.ofBytes (bs : List UInt8) : Block :=
  Vector.ofFn fun i => UInt64.ofNat (littleEndian ((bs.drop (8 * i.val)).take 8))

/-- The bytes of a block. -/
def Block.bytes (b : Block) : List UInt8 :=
  b.toList.flatMap fun w => bytesOf 8 w.toNat

/-- A sum with twice the product of the lower halves. -/
@[inline] def blend (x y : UInt64) : UInt64 :=
  x + y + 2 * (x &&& 0xFFFFFFFF) * (y &&& 0xFFFFFFFF)

/-- Mixes four words of a block. -/
def mix (v : Block) (i j k l : Fin 128) : Block :=
  let a := blend v[i] v[j]
  let d := rotateRight (v[l] ^^^ a) 32
  let c := blend v[k] d
  let b := rotateRight (v[j] ^^^ c) 24
  let a := blend a b
  let d := rotateRight (d ^^^ a) 16
  let c := blend c d
  let b := rotateRight (b ^^^ c) 63
  (((v.set i a).set j b).set k c).set l d

/-- Which of sixteen words are mixed together: columns, then diagonals. -/
def quarters : List (Nat × Nat × Nat × Nat) :=
  [(0, 4, 8, 12), (1, 5, 9, 13), (2, 6, 10, 14), (3, 7, 11, 15),
    (0, 5, 10, 15), (1, 6, 11, 12), (2, 7, 8, 13), (3, 4, 9, 14)]

/-- The word `n` of row `r`, where a block is eight rows of sixteen words. -/
def rowIndex (r n : Nat) : Fin 128 := Fin.ofNat 128 (16 * r + n)

/-- The word `n` of column `c`, where a block is eight columns of eight pairs of words. -/
def columnIndex (c n : Nat) : Fin 128 := Fin.ofNat 128 (16 * (n / 2) + 2 * c + n % 2)

/-- All mixings of a block in order: the eight rows, then the eight columns. -/
def mixings : List (Fin 128 × Fin 128 × Fin 128 × Fin 128) :=
  [rowIndex, columnIndex].flatMap fun index =>
    (List.range 8).flatMap fun r =>
      quarters.map fun (i, j, k, l) => (index r i, index r j, index r k, index r l)

/-- The block that two blocks determine. -/
def Block.compress (x y : Block) : Block :=
  let r := x.xor y
  r.xor (mixings.foldl (fun v (i, j, k, l) => mix v i j k l) r)

/-! ## Hashes of any length -/

/-- The chain of a long hash: half of each link, and all of the last, which has `size` bytes. -/
def chain : Nat → Nat → List UInt8 → List UInt8
  | 0, size, link => Blake2b.hash size link
  | n + 1, size, link =>
    let next := Blake2b.hash 64 link
    next.take 32 ++ chain n size next

/-- A hash of any number of bytes. -/
def longHash (size : Nat) (message : List UInt8) : List UInt8 :=
  let message := bytesOf 4 size ++ message
  if size ≤ 64 then Blake2b.hash size message
  else
    let links := (size + 31) / 32 - 2
    chain links (size - 32 * links) message

/-! ## Filling memory -/

/-- What is hashed: a secret with its salt and data that belongs to it. -/
structure Input where
  secret : List UInt8
  salt : List UInt8
  data : List UInt8

/-- A sequence of bytes with its length in front. -/
def counted (bs : List UInt8) : List UInt8 :=
  bytesOf 4 bs.length ++ bs

/-- The hash that the first blocks of all lanes come from. -/
def seed (v : Variant) (w : Version) (p : Params) (x : Input) : List UInt8 :=
  Blake2b.hash 64
    ([p.lanes, p.outputLength, p.memory, p.passes, w.code, v.code].flatMap (bytesOf 4) ++
      counted x.secret ++ counted x.salt ++ counted [] ++ counted x.data)

/-- Where filling is: pass, quarter and lane. -/
structure Place where
  pass : Nat
  slice : Nat
  lane : Nat

/-- Blocks are chosen by position here. -/
def Variant.byPosition (v : Variant) (place : Place) : Bool :=
  match v with
  | .d => false
  | .i => true
  | .id => place.pass == 0 && place.slice < 2

/-- The choices by position for 128 blocks, the `n`th of a segment from one. -/
def positionBlock (v : Variant) (p : Params) (place : Place) (n : Nat) : Block :=
  let numbers := [place.pass, place.lane, place.slice, p.lane * p.lanes, p.passes, v.code, n]
  let input := Vector.ofFn fun (i : Fin 128) => UInt64.ofNat (numbers.getD i.val 0)
  Block.zero.compress (Block.zero.compress input)

/-- The lane and the column of the other block, for a choice made of two numbers of 32 bits. -/
def reference (p : Params) (place : Place) (index : Nat) (choice : UInt64) : Nat × Nat :=
  let first := (choice &&& 0xFFFFFFFF).toNat
  let second := (choice >>> 32).toNat
  let lane := if place.pass = 0 && place.slice = 0 then place.lane else second % p.lanes
  let finished := if place.pass = 0 then place.slice * p.segment else p.lane - p.segment
  let area :=
    if lane = place.lane then finished + index - 1
    else if index = 0 then finished - 1
    else finished
  let back := area * (first * first / 0x100000000) / 0x100000000
  let start := if place.pass = 0 || place.slice = 3 then 0 else (place.slice + 1) * p.segment
  (lane, (start + (area - 1 - back)) % p.lane)

/-- Memory, row after row. -/
abbrev Memory := Array Block

/-- The block in a lane and a column, zeros outside the memory. -/
def Memory.block (p : Params) (m : Memory) (lane column : Nat) : Block :=
  (m[lane * p.lane + column]?).getD Block.zero

/-- Fills the block with this index of a segment. -/
def fillBlock (v : Variant) (w : Version) (p : Params) (place : Place) (positions : Array Block)
    (m : Memory) (index : Nat) : Memory :=
  let column := place.slice * p.segment + index
  let before := m.block p place.lane ((column + p.lane - 1) % p.lane)
  let choice :=
    if v.byPosition place then
      (positions[index / 128]?.getD Block.zero).get (Fin.ofNat 128 index)
    else before[0]
  let (lane, other) := reference p place index choice
  let fresh := before.compress (m.block p lane other)
  let block :=
    if place.pass = 0 || w = .v16 then fresh else fresh.xor (m.block p place.lane column)
  m.setIfInBounds (place.lane * p.lane + column) block

/-- Fills a segment. The first two blocks of every lane are there from the start. -/
def fillSegment (v : Variant) (w : Version) (p : Params) (m : Memory) (place : Place) : Memory :=
  let positions :=
    if v.byPosition place then
      (Array.range ((p.segment + 127) / 128)).map fun n => positionBlock v p place (n + 1)
    else #[]
  let start := if place.pass = 0 && place.slice = 0 then 2 else 0
  (List.range' start (p.segment - start)).foldl (fillBlock v w p place positions) m

/-- The segments in the order in which they are filled. -/
def Params.places (p : Params) : List Place :=
  (List.range p.passes).flatMap fun pass =>
    (List.range 4).flatMap fun slice =>
      (List.range p.lanes).map fun lane => ⟨pass, slice, lane⟩

/-- Memory before the first pass: two blocks in every lane. -/
def start (p : Params) (seed : List UInt8) : Memory :=
  (List.range p.lanes).foldl
    (fun m lane =>
      [0, 1].foldl
        (fun m column =>
          m.setIfInBounds (lane * p.lane + column)
            (Block.ofBytes (longHash 1024 (seed ++ bytesOf 4 column ++ bytesOf 4 lane))))
        m)
    (Array.replicate (p.lanes * p.lane) Block.zero)

/-- The hash of a secret. -/
def hash (v : Variant) (w : Version) (p : Params) (x : Input) : List UInt8 :=
  let m := p.places.foldl (fillSegment v w p) (start p (seed v w p x))
  let last := (List.range p.lanes).foldl
    (fun b lane => b.xor (m.block p lane (p.lane - 1))) Block.zero
  longHash p.outputLength last.bytes

end Latchkey.Crypto.Argon2
