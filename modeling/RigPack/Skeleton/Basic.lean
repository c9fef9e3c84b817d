import RigPack.Motion.Curve
import RigPack.Skeleton.Leaf

/-!
Bones bound to their curves. Binding takes from the keyframe tracks what a rig can express:
keyframes of position and rotation that have a value, in tracks of bones that there are.
-/

namespace RigPack

/-- A bone with the displacements of its rest pose. -/
structure Joint (α : Type) where
  bone : Bone α
  position : Curve α
  /-- Angles in degrees. -/
  rotation : Curve α
  deriving DecidableEq, Repr

/-- A node of a bound hierarchy. A leaf stands with its place among all leaves. -/
inductive Limb (α : Type)
  | joint (joint : Joint α) (children : List (Limb α))
  | leaf (index : Nat) (leaf : Leaf α)

structure Skeleton (α : Type) where
  roots : List (Limb α)
  leaves : List (Leaf α)

variable {α : Type}

/-- The key of a curve that a keyframe makes, if it has a value. What follows the second value is
passed over. -/
def Keyframe.key? (k : Keyframe α) : Option (Key α) :=
  match k.points with
  | [] => none
  | value :: rest => some ⟨k.time, value, rest.head?, k.interpolation⟩

/-- The keys of one channel in the order of the track. -/
def Keyframe.keysOf (channel : Channel) (track : List (Keyframe α)) : List (Key α) :=
  (track.filter fun k => k.channel = channel).filterMap Keyframe.key?

/-- The curve to which keys are added one after another. -/
def Curve.ofKeys [Scalar α] (keys : List (Key α)) : Curve α :=
  keys.foldl Curve.add .empty

namespace Skeleton

/-- The last leaf of a name, with its place. -/
def find? (leaves : List (Leaf α)) (name : String) : Option (Nat × Leaf α) :=
  (leaves.zipIdx.reverse.find? fun (l, _) => l.name = name).map fun (l, i) => (i, l)

variable [Scalar α]

/-- A bone with the curves of its track. Without a track it does not move. -/
def joint (tracks : Tracks α) (b : Bone α) : Joint α :=
  let track := (tracks[b.uuid]?).getD []
  ⟨b, .ofKeys (Keyframe.keysOf .position track), .ofKeys (Keyframe.keysOf .rotation track)⟩

mutual

/-- A node bound to its curves. A part without a leaf is left out. -/
def bindNode (tracks : Tracks α) (leaves : List (Leaf α)) : Node α → Option (Limb α)
  | .part p => (find? leaves p.name).map fun (i, l) => .leaf i l
  | .bone b children => some (.joint (joint tracks b) (bindForest tracks leaves children))

def bindForest (tracks : Tracks α) (leaves : List (Leaf α)) : List (Node α) → List (Limb α)
  | [] => []
  | n :: rest =>
    match bindNode tracks leaves n with
    | some limb => limb :: bindForest tracks leaves rest
    | none => bindForest tracks leaves rest

end

/-- The skeleton of a forest, with each bone bound to the track of its name and each part to the
leaf of its name. -/
def bind (roots : List (Node α)) (tracks : Tracks α) (leaves : List (Leaf α)) : Skeleton α :=
  ⟨bindForest tracks leaves roots, leaves⟩

end Skeleton
end RigPack
