import RigPack.Hash.Words

/-!
The XXH3 hashes of sixty-four and of a hundred and twenty-eight bits. Inputs of up to sixteen bytes,
of up to 128, of up to 240, and longer ones each have their own way.
-/

namespace RigPack
namespace Xxh3

open Hash

def p32a : UInt64 := 0x9E3779B1
def p32b : UInt64 := 0x85EBCA77
def p32c : UInt64 := 0xC2B2AE3D
def p64a : UInt64 := 0x9E3779B185EBCA87
def p64b : UInt64 := 0xC2B2AE3D27D4EB4F
def p64c : UInt64 := 0x165667B19E3779F9
def p64d : UInt64 := 0x85EBCA77C2B2AE63
def p64e : UInt64 := 0x27D4EB2F165667C5
def mixer : UInt64 := 0x165667919E3779F9
def shortMixer : UInt64 := 0x9FB21C651E98DF25

/-- The bytes that inputs are combined with. -/
def secret : ByteArray := ⟨#[
  0xb8, 0xfe, 0x6c, 0x39, 0x23, 0xa4, 0x4b, 0xbe, 0x7c, 0x01, 0x81, 0x2c, 0xf7, 0x21, 0xad, 0x1c,
  0xde, 0xd4, 0x6d, 0xe9, 0x83, 0x90, 0x97, 0xdb, 0x72, 0x40, 0xa4, 0xa4, 0xb7, 0xb3, 0x67, 0x1f,
  0xcb, 0x79, 0xe6, 0x4e, 0xcc, 0xc0, 0xe5, 0x78, 0x82, 0x5a, 0xd0, 0x7d, 0xcc, 0xff, 0x72, 0x21,
  0xb8, 0x08, 0x46, 0x74, 0xf7, 0x43, 0x24, 0x8e, 0xe0, 0x35, 0x90, 0xe6, 0x81, 0x3a, 0x26, 0x4c,
  0x3c, 0x28, 0x52, 0xbb, 0x91, 0xc3, 0x00, 0xcb, 0x88, 0xd0, 0x65, 0x8b, 0x1b, 0x53, 0x2e, 0xa3,
  0x71, 0x64, 0x48, 0x97, 0xa2, 0x0d, 0xf9, 0x4e, 0x38, 0x19, 0xef, 0x46, 0xa9, 0xde, 0xac, 0xd8,
  0xa8, 0xfa, 0x76, 0x3f, 0xe3, 0x9c, 0x34, 0x3f, 0xf9, 0xdc, 0xbb, 0xc7, 0xc7, 0x0b, 0x4f, 0x1d,
  0x8a, 0x51, 0xe0, 0x4b, 0xcd, 0xb4, 0x59, 0x31, 0xc8, 0x9f, 0x7e, 0xc9, 0xd9, 0x78, 0x73, 0x64,
  0xea, 0xc5, 0xac, 0x83, 0x34, 0xd3, 0xeb, 0xc3, 0xc5, 0x81, 0xa0, 0xff, 0xfa, 0x13, 0x63, 0xeb,
  0x17, 0x0d, 0xdd, 0x51, 0xb7, 0xf0, 0xda, 0x49, 0xd3, 0x16, 0x55, 0x26, 0x29, 0xd4, 0x68, 0x9e,
  0x2b, 0x16, 0xbe, 0x58, 0x7d, 0x47, 0xa1, 0xfc, 0x8f, 0xf8, 0xb8, 0xd1, 0x7a, 0xd0, 0x31, 0xce,
  0x45, 0xcb, 0x3a, 0x8f, 0x95, 0x16, 0x04, 0x28, 0xaf, 0xd7, 0xfb, 0xca, 0xbb, 0x4b, 0x40, 0x7e]⟩

/-- The last step of the shortest inputs. -/
def finishShort (h : UInt64) : UInt64 :=
  fold (fold (fold h 33 * p64b) 29 * p64c) 32

/-- The last step of all other inputs. -/
def finish (h : UInt64) : UInt64 :=
  fold (fold h 37 * mixer) 32

/-- Two words of the secret, added without carry. -/
def flip64 (i j : Nat) : UInt64 :=
  word64 secret i ^^^ word64 secret j

def flip32 (i j : Nat) : UInt64 :=
  word32 secret i ^^^ word32 secret j

/-- Up to three bytes with their number, in one half word. -/
def packed (input : ByteArray) : UInt64 :=
  let n := input.size
  (byte input 0 <<< 16) ||| (byte input (n / 2) <<< 24) ||| byte input (n - 1)
    ||| (n.toUInt64 <<< 8)

/-- A seed that has its lower half in its upper half too, in reverse order. -/
def doubledSeed (seed : UInt64) : UInt64 :=
  seed ^^^ (reverse32 seed <<< 32)

/-- Sixteen bytes of the input from `i` on, mixed with sixteen of the secret from `s` on. -/
def mix16 (input : ByteArray) (i s : Nat) (seed : UInt64) : UInt64 :=
  foldedProduct (word64 input i ^^^ (word64 secret s + seed))
    (word64 input (i + 8) ^^^ (word64 secret (s + 8) - seed))

/-- Two running words, after `mix16` of two places. -/
def mix32 (input : ByteArray) (i j s : Nat) (seed : UInt64) (acc : UInt64 × UInt64) :
    UInt64 × UInt64 :=
  ((acc.1 + mix16 input i s seed) ^^^ (word64 input j + word64 input (j + 8)),
    (acc.2 + mix16 input j (s + 16) seed) ^^^ (word64 input i + word64 input (i + 8)))

/-- The number of pairs of places, from both ends inward, that inputs of up to 128 bytes are read
at. -/
def pairCount (size : Nat) : Nat :=
  (size - 1) / 32 + 1

section Long

/-- The secret with a seed added to and subtracted from its words in turn. -/
def seededSecret (seed : UInt64) : ByteArray :=
  (List.range 12).foldl (fun out k =>
    out ++ bytesOf64 (word64 secret (16 * k) + seed)
      ++ bytesOf64 (word64 secret (16 * k + 8) - seed)) ByteArray.empty

/-- The eight running words at the start. -/
def lanes : Array UInt64 :=
  #[p32c, p64a, p64b, p64c, p64d, p32b, p64e, p32a]

def stripeSize : Nat := 64
def stripesPerBlock : Nat := 16
def blockSize : Nat := stripeSize * stripesPerBlock
def secretSize : Nat := 192

/-- Adds the stripe at `i` to the running words: each word of it to the neighbouring lane as it is,
and to its own as a product of its halves after the secret has been added. -/
def addStripe (input key : ByteArray) (acc : Array UInt64) (i s : Nat) : Array UInt64 :=
  (Array.range 8).map fun k =>
    let lane (n : Nat) : UInt64 := word64 input (i + 8 * n)
    let keyed := lane k ^^^ word64 key (s + 8 * k)
    let other := if k % 2 = 0 then k + 1 else k - 1
    (acc[k]?).getD 0 + lane other + low32 keyed * (keyed >>> 32)

/-- Adds `n` stripes from `i` on. -/
def addStripes (input key : ByteArray) (acc : Array UInt64) (i n : Nat) : Array UInt64 :=
  (List.range n).foldl (fun acc k => addStripe input key acc (i + stripeSize * k) (8 * k)) acc

/-- Mixes the running words after a block. -/
def scramble (key : ByteArray) (acc : Array UInt64) : Array UInt64 :=
  acc.mapIdx fun k a => (fold a 47 ^^^ word64 key (secretSize - stripeSize + 8 * k)) * p32a

/-- The running words after an input of more than 240 bytes. -/
def accumulate (input key : ByteArray) : Array UInt64 :=
  let blocks := (input.size - 1) / blockSize
  let acc := (List.range blocks).foldl (fun acc k =>
    scramble key (addStripes input key acc (blockSize * k) stripesPerBlock)) lanes
  let rest := (input.size - 1 - blockSize * blocks) / stripeSize
  let acc := addStripes input key acc (blockSize * blocks) rest
  addStripe input key acc (input.size - stripeSize) (secretSize - stripeSize - 7)

/-- The running words in one, with the secret from `s` on. -/
def merge (key : ByteArray) (acc : Array UInt64) (s : Nat) (start : UInt64) : UInt64 :=
  finish <| (List.range 4).foldl (fun sum k =>
    let lane (n : Nat) : UInt64 := (acc[n]?).getD 0
    sum + foldedProduct (lane (2 * k) ^^^ word64 key (s + 16 * k))
      (lane (2 * k + 1) ^^^ word64 key (s + 16 * k + 8))) start

end Long

def hash64 (seed : UInt64) (input : ByteArray) : UInt64 :=
  let n := input.size
  let size := n.toUInt64
  if n = 0 then finishShort (seed ^^^ flip64 56 64)
  else if n ≤ 3 then finishShort (packed input ^^^ (flip32 0 4 + seed))
  else if n ≤ 8 then
    let keyed := (word32 input (n - 4) + (word32 input 0 <<< 32))
      ^^^ (flip64 8 16 - doubledSeed seed)
    let h := keyed ^^^ rotateLeft keyed 49 ^^^ rotateLeft keyed 24
    let h := h * shortMixer
    let h := (h ^^^ ((h >>> 35) + size)) * shortMixer
    fold h 28
  else if n ≤ 16 then
    let lower := word64 input 0 ^^^ (flip64 24 32 + seed)
    let upper := word64 input (n - 8) ^^^ (flip64 40 48 - seed)
    finish (size + reverse64 lower + upper + foldedProduct lower upper)
  else if n ≤ 128 then
    finish <| (List.range (pairCount n)).foldl (fun sum k =>
      sum + mix16 input (16 * k) (32 * k) seed
        + mix16 input (n - 16 * (k + 1)) (32 * k + 16) seed) (size * p64a)
  else if n ≤ 240 then
    let start := finish <| (List.range 8).foldl (fun sum k =>
      sum + mix16 input (16 * k) (16 * k) seed) (size * p64a)
    let sum := (List.range (n / 16 - 8)).foldl (fun sum k =>
      sum + mix16 input (16 * (k + 8)) (16 * k + 3) seed) start
    finish (sum + mix16 input (n - 16) 119 seed)
  else
    let key := if seed = 0 then secret else seededSecret seed
    merge key (accumulate input key) 11 (size * p64a)

/-- The last step of the longer hash for inputs of 17 to 240 bytes. -/
def finishPair (seed size : UInt64) (acc : UInt64 × UInt64) : UInt64 × UInt64 :=
  (finish (acc.1 + acc.2),
    0 - finish (acc.1 * p64a + acc.2 * p64d + (size - seed) * p64b))

/-- The hash of a hundred and twenty-eight bits, its lower half first. -/
def hash128 (seed : UInt64) (input : ByteArray) : UInt64 × UInt64 :=
  let n := input.size
  let size := n.toUInt64
  if n = 0 then (finishShort (seed ^^^ flip64 64 72), finishShort (seed ^^^ flip64 80 88))
  else if n ≤ 3 then
    let lower := packed input
    let turned := reverse32 lower
    let upper := low32 ((turned <<< 13) ||| (turned >>> 19))
    (finishShort (lower ^^^ (flip32 0 4 + seed)), finishShort (upper ^^^ (flip32 8 12 - seed)))
  else if n ≤ 8 then
    let keyed := (word32 input 0 + (word32 input (n - 4) <<< 32))
      ^^^ (flip64 16 24 + doubledSeed seed)
    let (lower, upper) := product keyed (p64a + (size <<< 2))
    let upper := upper + (lower <<< 1)
    let lower := lower ^^^ (upper >>> 3)
    (fold (fold lower 35 * shortMixer) 28, finish upper)
  else if n ≤ 16 then
    let first := word64 input 0
    let last := word64 input (n - 8)
    let (lower, upper) := product (first ^^^ last ^^^ (flip64 32 40 - seed)) p64a
    let lower := lower + ((size - 1) <<< 54)
    let last := last ^^^ (flip64 48 56 + seed)
    let upper := upper + last + low32 last * (p32b - 1)
    let lower := lower ^^^ reverse64 upper
    let (lower', upper') := product lower p64b
    (finish lower', finish (upper' + upper * p64b))
  else if n ≤ 128 then
    finishPair seed size <| (List.range (pairCount n)).foldr (fun k acc =>
      mix32 input (16 * k) (n - 16 * (k + 1)) (32 * k) seed acc) (size * p64a, 0)
  else if n ≤ 240 then
    let acc := (List.range 4).foldl (fun acc k =>
      mix32 input (32 * k) (32 * k + 16) (32 * k) seed acc) (size * p64a, 0)
    let acc := (finish acc.1, finish acc.2)
    let acc := (List.range (n / 32 - 4)).foldl (fun acc k =>
      mix32 input (32 * (k + 4)) (32 * (k + 4) + 16) (32 * k + 3) seed acc) acc
    finishPair seed size (mix32 input (n - 16) (n - 32) 103 (0 - seed) acc)
  else
    let key := if seed = 0 then secret else seededSecret seed
    let acc := accumulate input key
    (merge key acc 11 (size * p64a),
      merge key acc (secretSize - stripeSize - 11) ((size * p64b) ^^^ 0xFFFFFFFFFFFFFFFF))

end Xxh3
end RigPack
