/-! The cyclic redundancy check of image chunks: the remainder of a message by a polynomial of
degree thirty-two, over bits in reverse order. -/

namespace RigPack
namespace Crc32

/-- The polynomial without its leading term, its bits in reverse order. -/
def polynomial : UInt32 := 0xEDB88320

/-- The remainder after one more bit of zero. -/
def shift (r : UInt32) : UInt32 :=
  if r &&& 1 = 1 then (r >>> 1) ^^^ polynomial else r >>> 1

/-- The remainder after one more byte. -/
def update (r : UInt32) (byte : UInt8) : UInt32 :=
  Nat.repeat shift 8 (r ^^^ byte.toUInt32)

def ofBytes (bytes : ByteArray) : UInt32 :=
  bytes.foldl update 0xFFFFFFFF ^^^ 0xFFFFFFFF

end Crc32

namespace Adler32

/-- The sum of the bytes and the sum of those sums, both modulo the greatest prime of sixteen bits.
-/
def ofBytes (bytes : ByteArray) : UInt32 :=
  let modulus : UInt32 := 65521
  let (a, b) := bytes.foldl (fun (a, b) byte =>
    let a := (a + byte.toUInt32) % modulus
    (a, (b + a) % modulus)) ((1 : UInt32), (0 : UInt32))
  (b <<< 16) ||| a

end Adler32
end RigPack
