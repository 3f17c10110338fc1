import Earmark.Whole

/-!
The SHA-1 digest of a list of bytes.
-/

namespace Earmark.Digest

open scoped Earmark.Whole

/-- The five words that the digest chains. -/
structure Chain where
  a : UInt32
  b : UInt32
  c : UInt32
  d : UInt32
  e : UInt32

def Chain.initial : Chain := ⟨0x67452301, 0xefcdab89, 0x98badcfe, 0x10325476, 0xc3d2e1f0⟩

def rotateLeft (x : UInt32) (k : UInt32) : UInt32 := (x <<< k) ||| (x >>> (32 - k))

/-- The `count` bytes of a number, the greatest first. -/
def bigEndian (count n : Nat) : List UInt8 :=
  (List.range count).reverse.map fun k => UInt8.ofNat (n / 256 ^ k)

/-- A message with a one bit, zeros and its length in bits, a whole number of blocks. -/
def pad (message : List UInt8) : List UInt8 :=
  let zeros := (55 + 64 - message.length % 64) % 64
  message ++ 0x80 :: List.replicate zeros 0 ++ bigEndian 8 (8 * message.length)

def wordOfBytes (bytes : List UInt8) : UInt32 :=
  bytes.foldl (fun word byte => (word <<< 8) ||| byte.toUInt32) 0

/-- Cuts a list into pieces of `size`, as many as `count`. -/
def pieces {α : Type} (size : Nat) : Nat → List α → List (List α)
  | 0, _ => []
  | count + 1, xs => xs.take size :: pieces size count (xs.drop size)

/-- The eighty words that a block of sixteen is spread to. -/
def schedule (block : List UInt32) : Array UInt32 :=
  (List.range 64).foldl
    (fun words k =>
      let earlier (back : Nat) : UInt32 := words.getD (k + 16 - back) 0
      words.push (rotateLeft (earlier 3 ^^^ earlier 8 ^^^ earlier 14 ^^^ earlier 16) 1))
    block.toArray

/-- The function and the constant of a round. -/
def roundFunction (round : Nat) (b c d : UInt32) : UInt32 × UInt32 :=
  if round < 20 then ((b &&& c) ||| (~~~b &&& d), 0x5a827999)
  else if round < 40 then (b ^^^ c ^^^ d, 0x6ed9eba1)
  else if round < 60 then ((b &&& c) ||| (b &&& d) ||| (c &&& d), 0x8f1bbcdc)
  else (b ^^^ c ^^^ d, 0xca62c1d6)

def Chain.step (words : Array UInt32) (chain : Chain) (round : Nat) : Chain :=
  let (f, k) := roundFunction round chain.b chain.c chain.d
  { a := rotateLeft chain.a 5 + f + chain.e + k + words.getD round 0
    b := chain.a
    c := rotateLeft chain.b 30
    d := chain.c
    e := chain.d }

def Chain.absorb (chain : Chain) (block : List UInt32) : Chain :=
  let mixed := (List.range 80).foldl (Chain.step (schedule block)) chain
  ⟨chain.a + mixed.a, chain.b + mixed.b, chain.c + mixed.c, chain.d + mixed.d, chain.e + mixed.e⟩

def sha1 (message : List UInt8) : List UInt8 :=
  let padded := pad message
  let blocks := (pieces 64 (padded.length / 64) padded).map fun bytes =>
    (pieces 4 16 bytes).map wordOfBytes
  let chain := blocks.foldl Chain.absorb .initial
  [chain.a, chain.b, chain.c, chain.d, chain.e].flatMap fun word => bigEndian 4 word.toNat

end Earmark.Digest
