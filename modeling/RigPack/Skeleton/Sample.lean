import RigPack.Skeleton.Basic

/-! Skeletons at an instant: the pose of each bone, and from it the place of every part. -/

namespace RigPack

variable {α : Type} [Trigonometric α]

namespace Joint

/-- The rest pose, displaced by the curves. -/
def poseAt (j : Joint α) (t : α) : Pose α :=
  ⟨j.bone.origin + j.position.eval t, j.bone.rotation + j.rotation.eval t⟩

/-- A bone turns about its pivot at rest. -/
def matrixAt (j : Joint α) (t : α) : Mat4 α :=
  (j.poseAt t).toMatrixAbout j.bone.origin

end Joint

/-- A leaf at its place in the world. -/
structure Placed (α : Type) where
  index : Nat
  leaf : Leaf α
  world : Mat4 α
  deriving DecidableEq, Repr

mutual

/-- The leaves of a limb at time `t`, each moved by all bones above it and by `parent` before them.
-/
def Limb.placedAt (t : α) (parent : Mat4 α) : Limb α → List (Placed α)
  | .leaf i l => [⟨i, l, parent * l.matrix⟩]
  | .joint j children => Limb.allPlacedAt t (parent * j.matrixAt t) children

def Limb.allPlacedAt (t : α) (parent : Mat4 α) : List (Limb α) → List (Placed α)
  | [] => []
  | n :: rest => n.placedAt t parent ++ Limb.allPlacedAt t parent rest

end

/-- The leaves of a skeleton at time `t`, in the order of declaration. -/
def Skeleton.placedAt (s : Skeleton α) (t : α) (parent : Mat4 α) : List (Placed α) :=
  Limb.allPlacedAt t parent s.roots

end RigPack
