import RigPack.Image.Crc32

/-!
The chunks that an image file consists of: a size, four letters of type, the content, and a check on
the type and the content.
-/

namespace RigPack

/-- Four bytes as a number, the highest first. -/
def word32 (bytes : ByteArray) (i : Nat) : Option Nat := do
  let a ← bytes[i]?
  let b ← bytes[i + 1]?
  let c ← bytes[i + 2]?
  let d ← bytes[i + 3]?
  return ((a.toNat * 256 + b.toNat) * 256 + c.toNat) * 256 + d.toNat

/-- A number as four bytes, the highest first. -/
def bytesOf32 (n : Nat) : ByteArray :=
  ⟨#[(n >>> 24).toUInt8, (n >>> 16).toUInt8, (n >>> 8).toUInt8, n.toUInt8]⟩

/-- A piece of the file with its four letters of type. -/
structure Chunk where
  type : String
  content : ByteArray
  /-- Whether its check agrees with it. -/
  sound : Bool

namespace Chunk

/-- The type of the chunk that starts at `i`. -/
def typeAt? (bytes : ByteArray) (i : Nat) : Option String := do
  let letters ← (List.range 4).mapM fun k => bytes[i + 4 + k]?
  return String.ofList (letters.map fun b => Char.ofNat b.toNat)

def at? (bytes : ByteArray) (i : Nat) : Option Chunk := do
  let size ← word32 bytes i
  let type ← typeAt? bytes i
  let check ← word32 bytes (i + 8 + size)
  let covered := bytes.extract (i + 4) (i + 8 + size)
  return ⟨type, bytes.extract (i + 8) (i + 8 + size), (Crc32.ofBytes covered).toNat = check⟩

def size (c : Chunk) : Nat :=
  c.content.size + 12

/-- Whether a reader must understand the chunk: the first letter of its type is a capital, which is
to say that it lacks the bit of the small ones. -/
def isCritical (c : Chunk) : Bool :=
  c.type.toList.head?.any fun l => l.toNat &&& 0x20 = 0

/-- The bytes of a chunk with this type and content. -/
def encode (type : String) (content : ByteArray) : ByteArray :=
  let covered := type.toUTF8 ++ content
  bytesOf32 content.size ++ covered ++ bytesOf32 (Crc32.ofBytes covered).toNat

end Chunk
end RigPack
