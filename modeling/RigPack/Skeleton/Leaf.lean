import RigPack.Rig.Basic
import RigPack.Space.Pose

/-! The parts of a forest, each with the id by which its model is shown. -/

namespace RigPack

/-- A part that has its id. -/
structure Leaf (α : Type) where
  name : String
  low : Vec3 α
  high : Vec3 α
  origin : Vec3 α
  rotation : Vec3 α
  faces : Faces α
  customId : UInt32
  deriving DecidableEq, Repr

namespace Part

variable {α : Type}

/-- The part under an id, whatever id its author may have chosen. -/
def withId (p : Part α) (id : UInt32) : Leaf α :=
  { name := p.name, low := p.low, high := p.high, origin := p.origin, rotation := p.rotation,
    faces := p.faces, customId := id }

end Part

/-- Puts the part's origin where it was authored, turned as it was authored. -/
def Leaf.matrix {α : Type} [Trigonometric α] (l : Leaf α) : Mat4 α :=
  Pose.toMatrix ⟨l.origin, l.rotation⟩

namespace Node

variable {α : Type}

mutual

/-- The parts of a node in the order of their declaration. -/
def parts : Node α → List (Part α)
  | .bone _ children => partsOf children
  | .part p => [p]

/-- The parts of a forest in the order of their declaration. -/
def partsOf : List (Node α) → List (Part α)
  | [] => []
  | n :: rest => n.parts ++ partsOf rest

end

/-- The parts of a forest with the ids that `assign` gives them, asked in the order of declaration.
-/
def leaves {m : Type → Type} [Monad m] (assign : Part α → m UInt32) (roots : List (Node α)) :
    m (List (Leaf α)) :=
  (partsOf roots).mapM fun p => return p.withId (← assign p)

end Node
end RigPack
