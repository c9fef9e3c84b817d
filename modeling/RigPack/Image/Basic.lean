/-! Images of red, green, blue and alpha, eight bits each. -/

namespace RigPack

/-- An image by rows from the top, four bytes to a pixel. -/
structure Image where
  width : Nat
  height : Nat
  pixels : ByteArray

namespace Image

/-- Images are equal if they have the same size and the same pixels. -/
theorem eq_iff {a b : Image} :
    a = b ↔ a.width = b.width ∧ a.height = b.height ∧ a.pixels.data = b.pixels.data := by
  cases a
  cases b
  simp [ByteArray.ext_iff]

instance : DecidableEq Image :=
  fun _ _ => decidable_of_iff' _ eq_iff

end Image

end RigPack
