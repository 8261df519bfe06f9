/-!
# BLAKE2b

The unkeyed hash function BLAKE2b with a digest of eight bytes. The input is cut into blocks of 128
bytes, the last one filled up with zeros; each block is mixed into a state of eight words in twelve
rounds.
-/

namespace SourceReport.Blake2b

/-- The initial chaining words. -/
def initial : Vector UInt64 8 := #v[
  0x6a09e667f3bcc908, 0xbb67ae8584caa73b, 0x3c6ef372fe94f82b, 0xa54ff53a5f1d36f1,
  0x510e527fade682d1, 0x9b05688c2b3e6c1f, 0x1f83d9abfb41bd6b, 0x5be0cd19137e2179]

/-- The order in which the ten kinds of rounds take the words of a block. -/
def permutations : Vector (Vector (Fin 16) 16) 10 := #v[
  #v[0, 1, 2, 3, 4, 5, 6, 7, 8, 9, 10, 11, 12, 13, 14, 15],
  #v[14, 10, 4, 8, 9, 15, 13, 6, 1, 12, 0, 2, 11, 7, 5, 3],
  #v[11, 8, 12, 0, 5, 2, 15, 13, 10, 14, 3, 6, 7, 1, 9, 4],
  #v[7, 9, 3, 1, 13, 12, 11, 14, 2, 6, 5, 10, 4, 0, 15, 8],
  #v[9, 0, 5, 7, 2, 4, 10, 15, 14, 1, 11, 12, 6, 8, 3, 13],
  #v[2, 12, 6, 10, 0, 11, 8, 3, 4, 13, 7, 5, 15, 14, 1, 9],
  #v[12, 5, 1, 15, 14, 13, 4, 10, 0, 7, 6, 3, 9, 2, 8, 11],
  #v[13, 11, 7, 14, 12, 1, 3, 9, 5, 0, 15, 4, 8, 6, 2, 10],
  #v[6, 15, 14, 9, 11, 3, 0, 8, 12, 2, 13, 7, 1, 4, 10, 5],
  #v[10, 2, 8, 4, 7, 6, 1, 5, 15, 11, 9, 14, 3, 12, 13, 0]]

/-- The words that each of the eight mixing steps of a round works on: columns, then diagonals. -/
def quarters : Vector (Fin 16 × Fin 16 × Fin 16 × Fin 16) 8 := #v[
  (0, 4, 8, 12), (1, 5, 9, 13), (2, 6, 10, 14), (3, 7, 11, 15),
  (0, 5, 10, 15), (1, 6, 11, 12), (2, 7, 8, 13), (3, 4, 9, 14)]

/-- Rotates a word to the right. -/
def rotate (x : UInt64) (n : UInt64) : UInt64 := (x >>> n) ||| (x <<< (64 - n))

/-- Mixes two words of the block into four words of the working state. -/
def mix (v : Vector UInt64 16) (q : Fin 16 × Fin 16 × Fin 16 × Fin 16) (x y : UInt64) :
    Vector UInt64 16 :=
  let (i, j, k, l) := q
  let a := v[i] + v[j] + x
  let d := rotate (v[l] ^^^ a) 32
  let c := v[k] + d
  let b := rotate (v[j] ^^^ c) 24
  let a := a + b + y
  let d := rotate (d ^^^ a) 16
  let c := c + d
  let b := rotate (b ^^^ c) 63
  (((v.set i a).set j b).set k c).set l d

/-- One round: eight mixing steps with the words of the block in the order of the round. -/
def round (block : Vector UInt64 16) (v : Vector UInt64 16) (r : Nat) : Vector UInt64 16 :=
  let order := permutations.get ⟨r % 10, Nat.mod_lt _ (by decide)⟩
  (List.finRange 8).foldl (fun v i =>
    mix v quarters[i] block[order.get ⟨2 * i.val, by omega⟩]
      block[order.get ⟨2 * i.val + 1, by omega⟩]) v

/-- Mixes a block into the chaining words. `count` is the number of input bytes so far. -/
def compress (h : Vector UInt64 8) (block : Vector UInt64 16) (count : Nat) (last : Bool) :
    Vector UInt64 8 :=
  let start : Vector UInt64 16 := h ++ initial
  let v := start.set 12 (start[12] ^^^ .ofNat count)
  let v := v.set 13 (v[13] ^^^ .ofNat (count / 0x10000000000000000))
  let v := if last then v.set 14 (~~~ v[14]) else v
  let v := (List.range 12).foldl (round block) v
  Vector.ofFn fun i => h[i] ^^^ v[i.val] ^^^ v[i.val + 8]

/-- The word whose bytes, the least significant first, start at an index; missing bytes are zero. -/
def word (bytes : Array UInt8) (index : Nat) : UInt64 :=
  (List.range 8).foldr (fun k w => w * 256 + (bytes.getD (index + k) 0).toUInt64) 0

/-- The block that starts at an index. -/
def block (bytes : Array UInt8) (index : Nat) : Vector UInt64 16 :=
  Vector.ofFn fun i => word bytes (index + 8 * i.val)

/-- The number of blocks; an empty input has one. -/
def blocks (size : Nat) : Nat := max 1 ((size + 127) / 128)

/-- The first chaining words carry the length of the digest. -/
def seeded : Vector UInt64 8 := initial.set 0 (initial[0] ^^^ 0x01010008)

/-- The chaining words after the whole input. -/
def chain (bytes : Array UInt8) : Vector UInt64 8 :=
  let n := blocks bytes.size
  (List.range n).foldl (fun h i =>
    compress h (block bytes (128 * i)) (min (128 * (i + 1)) bytes.size) (i + 1 == n)) seeded

/-- The bytes of a word, the least significant first. -/
def wordBytes (w : UInt64) : List UInt8 :=
  (List.range 8).map fun k => (w >>> (8 * UInt64.ofNat k)).toUInt8

/-- The digest of eight bytes. -/
def digest (bytes : List UInt8) : List UInt8 := wordBytes (chain bytes.toArray)[0]

/-- The digest as a number, its first byte the most significant. -/
def digestNumber (bytes : List UInt8) : Nat :=
  (digest bytes).foldl (fun n b => n * 256 + b.toNat) 0

end SourceReport.Blake2b
