/-!
Bytes read as text. What cannot be read keeps its place, so that a reader can pass over it where the
text does not matter and refuse it where it does.
-/

namespace RigPack

/-- A character, or a byte that belongs to none. -/
abbrev Letter := Option Char

namespace Letters

def ofString (s : String) : List Letter :=
  s.toList.map some

/-- The letters of the bytes from `i` on. -/
def ofBytesFrom (bytes : ByteArray) (i : Nat) : List Letter :=
  if i < bytes.size then
    match bytes.utf8DecodeChar? i with
    | some c => some c :: ofBytesFrom bytes (i + c.utf8Size)
    | none => none :: ofBytesFrom bytes (i + 1)
  else []
termination_by bytes.size - i
decreasing_by
  · have := c.utf8Size_pos
    omega
  · omega

/-- The letters of UTF-8 bytes. -/
def ofBytes (bytes : ByteArray) : List Letter :=
  ofBytesFrom bytes 0

end Letters
end RigPack
