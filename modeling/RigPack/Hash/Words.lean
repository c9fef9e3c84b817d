/-! Words in bytes, and the steps by which words are mixed. -/

namespace RigPack
namespace Hash

/-- The byte at `i`. Behind the end there are zeros. -/
def byte (bytes : ByteArray) (i : Nat) : UInt64 :=
  ((bytes[i]?).getD 0).toUInt64

/-- The `n` bytes from `i` on as a number, the lowest first. -/
def little (bytes : ByteArray) (i : Nat) : Nat → UInt64
  | 0 => 0
  | n + 1 => byte bytes i ||| (little bytes (i + 1) n <<< 8)

def word32 (bytes : ByteArray) (i : Nat) : UInt64 :=
  little bytes i 4

def word64 (bytes : ByteArray) (i : Nat) : UInt64 :=
  little bytes i 8

/-- The eight bytes of a word, the lowest first. -/
def bytesOf64 (w : UInt64) : ByteArray :=
  ⟨((Array.range 8).map fun k => (w >>> (8 * k).toUInt64).toUInt8)⟩

def rotateLeft (w : UInt64) (n : UInt64) : UInt64 :=
  (w <<< n) ||| (w >>> (64 - n))

def low32 (w : UInt64) : UInt64 :=
  w &&& 0xFFFFFFFF

/-- The byte of a word above its lowest `n` bits. -/
def byteAbove (w n : UInt64) : UInt64 :=
  (w >>> n) &&& (0xFF : UInt64)

/-- The lower four bytes of a word in reverse order. -/
def reverse32 (w : UInt64) : UInt64 :=
  (byteAbove w 0 <<< 24) ||| (byteAbove w 8 <<< 16) ||| (byteAbove w 16 <<< 8) ||| byteAbove w 24

/-- The eight bytes of a word in reverse order. -/
def reverse64 (w : UInt64) : UInt64 :=
  (reverse32 w <<< 32) ||| reverse32 (w >>> 32)

/-- A word with a shifted copy of itself added without carry. -/
def fold (w : UInt64) (n : UInt64) : UInt64 :=
  w ^^^ (w >>> n)

/-- The lower and the upper half of a product. -/
def product (a b : UInt64) : UInt64 × UInt64 :=
  let p := a.toNat * b.toNat
  (p.toUInt64, (p >>> 64).toUInt64)

/-- The two halves of a product, added without carry. -/
def foldedProduct (a b : UInt64) : UInt64 :=
  let (lower, upper) := product a b
  lower ^^^ upper

end Hash
end RigPack
