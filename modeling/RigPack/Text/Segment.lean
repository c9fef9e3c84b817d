/-! Segments: the names that may stand between the slashes of a resource path. -/

namespace RigPack

/-- Small letters, digits, and the three marks `_`, `-`, `.`, all of them ASCII. -/
def isSegmentChar (c : Char) : Bool :=
  c.isLower || c.isDigit || c = '_' || c = '-' || c = '.'

/-- Whether `s` may name an entity, a part, a texture or an animation. The two names with which a
directory refers to itself and to its parent may not. -/
def isSegment (s : String) : Bool :=
  s != "" && s.toList.all isSegmentChar && s != "." && s != ".."

theorem isSegment_iff {s : String} :
    isSegment s ↔ s ≠ "" ∧ (∀ c ∈ s.toList, isSegmentChar c) ∧ s ≠ "." ∧ s ≠ ".." := by
  simp [isSegment, and_assoc]

end RigPack
