import RigPack.Motion.Interpolation
import RigPack.Space.Vec3
import Std.Data.ExtTreeMap

/-!
Rigs as they are authored: a forest of bones that carry rigid parts, the textures of the parts'
faces, and animations as keyframe tracks of the bones.
-/

namespace RigPack

/-- The sides of a box, in the order in which exports list them. -/
inductive Side
  | north
  | east
  | south
  | west
  | up
  | down
  deriving DecidableEq, Repr, Inhabited

namespace Side

def name : Side → String
  | north => "north"
  | east => "east"
  | south => "south"
  | west => "west"
  | up => "up"
  | down => "down"

def all : List Side :=
  [north, east, south, west, up, down]

def ofName? (s : String) : Option Side :=
  all.find? fun side => side.name == s

theorem ofName?_name (s : Side) : ofName? s.name = some s := by
  cases s <;> rfl

end Side

/-- A rectangle of a texture, in fractions of its size. -/
structure UvRect (α : Type) where
  u0 : α
  v0 : α
  u1 : α
  v1 : α
  deriving DecidableEq, Repr

namespace UvRect

variable {α β : Type}

def map (f : α → β) (r : UvRect α) : UvRect β :=
  ⟨f r.u0, f r.v0, f r.u1, f r.v1⟩

def toList (r : UvRect α) : List α :=
  [r.u0, r.v0, r.u1, r.v1]

def ofList? : List α → Option (UvRect α)
  | [u0, v0, u1, v1] => some ⟨u0, v0, u1, v1⟩
  | _ => none

end UvRect

/-- What a part shows on one side. A face without a texture is left out of the part's model. -/
structure Face (α : Type) where
  texture : Option String
  uv : UvRect α
  deriving DecidableEq, Repr

/-- The faces of a part, at most one to a side. -/
structure Faces (α : Type) where
  north : Option (Face α) := none
  east : Option (Face α) := none
  south : Option (Face α) := none
  west : Option (Face α) := none
  up : Option (Face α) := none
  down : Option (Face α) := none
  deriving DecidableEq, Repr

namespace Faces

variable {α : Type}

def get? (faces : Faces α) : Side → Option (Face α)
  | .north => faces.north
  | .east => faces.east
  | .south => faces.south
  | .west => faces.west
  | .up => faces.up
  | .down => faces.down

def set (faces : Faces α) (side : Side) (face : Face α) : Faces α :=
  match side with
  | .north => { faces with north := some face }
  | .east => { faces with east := some face }
  | .south => { faces with south := some face }
  | .west => { faces with west := some face }
  | .up => { faces with up := some face }
  | .down => { faces with down := some face }

theorem get?_set (faces : Faces α) (side other : Side) (face : Face α) :
    (faces.set side face).get? other = if other = side then some face else faces.get? other := by
  cases side <;> cases other <;> rfl

/-- The faces that there are, in the order of the sides. -/
def toList (faces : Faces α) : List (Side × Face α) :=
  Side.all.filterMap fun side => (faces.get? side).map (side, ·)

end Faces

/-- A rigid box that moves with the bone above it. -/
structure Part (α : Type) where
  name : String
  /-- The corner from which the box extends. -/
  low : Vec3 α
  /-- The corner to which the box extends. -/
  high : Vec3 α
  origin : Vec3 α
  /-- Angles in degrees. -/
  rotation : Vec3 α
  faces : Faces α
  /-- The id that selects the part's model, if the author chose one. -/
  customId : Option UInt32
  deriving DecidableEq, Repr

/-- A bone at rest. -/
structure Bone (α : Type) where
  /-- The name by which keyframe tracks refer to the bone. -/
  uuid : String
  name : String
  origin : Vec3 α
  /-- Angles in degrees. -/
  rotation : Vec3 α
  deriving DecidableEq, Repr

inductive Node (α : Type)
  | bone (bone : Bone α) (children : List (Node α))
  | part (part : Part α)

/-- A texture and where its image comes from: a path relative to the rig's file, or the image itself
as text. -/
structure TextureSource where
  id : String
  source : String
  deriving DecidableEq, Repr

/-- What a keyframe moves. -/
inductive Channel
  | position
  | rotation
  /-- Something that no rig can express. Keyframes of it are passed over. -/
  | unsupported
  deriving DecidableEq, Repr

namespace Channel

def name : Channel → String
  | position => "position"
  | rotation => "rotation"
  | unsupported => "unsupported"

def ofName : String → Channel
  | "position" => position
  | "rotation" => rotation
  | _ => unsupported

theorem ofName_name (c : Channel) : ofName c.name = c := by
  cases c <;> rfl

end Channel

/-- A keyframe as authored: one value, or the value before a jump and the value after it. -/
structure Keyframe (α : Type) where
  channel : Channel
  time : α
  interpolation : Interpolation
  points : List (Vec3 α)
  deriving DecidableEq, Repr

/-- Keyframes by the bone that they move. -/
abbrev Tracks (α : Type) := Std.ExtTreeMap String (List (Keyframe α))

structure Animation (α : Type) where
  name : String
  /-- Duration in seconds. -/
  length : α
  /-- The authored loop policy. It is understood when the animation is compiled. -/
  loop : String
  tracks : Tracks α

/-- All that one file says about an entity. -/
structure Rig (α : Type) where
  name : String
  textures : List TextureSource
  roots : List (Node α)
  animations : List (Animation α)

end RigPack
