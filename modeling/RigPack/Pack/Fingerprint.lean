import RigPack.Hash.Xxh3
import RigPack.Pack.Artifacts

/-!
One number for a whole pack. The files are written into one stream from which they can be read back,
and the stream is hashed.
-/

namespace RigPack

/-- A hash of a hundred and twenty-eight bits. -/
structure Fingerprint where
  high : UInt64
  low : UInt64
  deriving DecidableEq, Repr

namespace ArtifactSet

/-- Bytes behind their number. -/
def framed (bytes : ByteArray) : ByteArray :=
  Hash.bytesOf64 bytes.size.toUInt64 ++ bytes

/-- The number of files, then each file as its path and its bytes. -/
def stream (s : ArtifactSet) : ByteArray :=
  s.toList.foldl (fun out (path, bytes) => out ++ framed path.toUTF8 ++ framed bytes)
    (Hash.bytesOf64 s.size.toUInt64)

def fingerprintSeed : UInt64 := 0x3c6ef372fe94f82b

def fingerprint (s : ArtifactSet) : Fingerprint :=
  let (low, high) := Xxh3.hash128 fingerprintSeed s.stream
  ⟨high, low⟩

end ArtifactSet

/-- The digits of a number in base sixteen, as many as asked for. -/
def hexText (digits n : Nat) : String :=
  String.ofList ((List.range digits).reverse.map fun k => Literal.hexDigit (n >>> (4 * k) % 16))

def Fingerprint.text (f : Fingerprint) : String :=
  hexText 16 f.high.toNat ++ hexText 16 f.low.toNat

end RigPack
