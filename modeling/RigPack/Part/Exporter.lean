import RigPack.Part.Model
import RigPack.Program.Directive
import RigPack.Program.Names
import RigPack.Skeleton.Leaf
import RigPack.Texture.Store

/-! What becomes of a part in a pack: the directives that make and pose its proxy, and its model. -/

namespace RigPack

/-- The entity whose parts are exported, the namespace of its resources, and the item that its
proxies wear. -/
structure Exporter where
  entity : String
  space : String
  item : String

namespace Exporter

def tag (x : Exporter) (l : Leaf Float) : String :=
  Names.partTag x.entity l.name

/-- Makes the proxy of a part. Its first tag lets the spawn program find it. -/
def spawn (x : Exporter) (l : Leaf Float) : Directive Float :=
  .summon [Names.fresh, x.tag l, Names.proxy] x.item l.customId

def unitsPerBlock : Float := 16

/-- Where a proxy stands, in blocks from its root. The game's third axis points the other way. -/
def offset (world : Mat4 Float) : Vec3 Float :=
  let blocks := (Pose.ofMatrix world).position.map (· / unitsPerBlock)
  ⟨blocks.x, blocks.y, -blocks.z⟩

/-- How a proxy's head is turned. Two of the game's turns go the other way. -/
def turn (world : Mat4 Float) : Vec3 Float :=
  let rotation := (Pose.ofMatrix world).rotation
  ⟨-rotation.x, rotation.y, -rotation.z⟩

/-- Moves and turns the active proxy of a part to its place in the world. -/
def pose (x : Exporter) (l : Leaf Float) (world : Mat4 Float) : List (Directive Float) :=
  let target := Target.select { tags := [Names.active, x.tag l], single := true }
  [.teleport target (offset world).x (offset world).y (offset world).z,
    .poseHead target (turn world).x (turn world).y (turn world).z]

def modelPath (x : Exporter) (l : Leaf Float) : ResourcePath :=
  ((ResourcePath.root x.space).child x.entity).child l.name

def texturePath (x : Exporter) (id : String) : ResourcePath :=
  ((ResourcePath.root x.space).child x.entity).child id

/-- Places in a pack at which the origin of a part comes to lie. -/
def displayCenter : Vec3 Float := ⟨8, 0, 8⟩

/-- A corner of a part as its model has it. -/
def recenter (l : Leaf Float) (corner : Vec3 Float) : Vec3 Float :=
  ((corner - l.origin) + displayCenter).map (roundTo · directivePlaces)

/-- The faces of a part that have a texture, each with the texture that is exported for it. -/
def texturedFaces (x : Exporter) (l : Leaf Float) (store : TextureStore) :
    Except Error (List (Side × Texture × Face Float)) :=
  (l.faces.toList.filterMap fun (side, f) => f.texture.map fun id => (side, id, f)).mapM
    fun (side, id, f) =>
      match store.resolve? id with
      | some t => .ok (side, t, f)
      | none => .error (.unboundTexture x.entity l.name side.name id)

def model (x : Exporter) (l : Leaf Float) (store : TextureStore) : Except Error Model := do
  let faces ← x.texturedFaces l store
  return {
    textures := faces.foldl (fun m (_, t, _) => m.insert t.id (x.texturePath t.id).text) ∅
    low := recenter l l.low
    high := recenter l l.high
    faces := faces.map fun (side, t, f) =>
      (side, ⟨t.id, f.uv.map fun v => roundTo (v * unitsPerBlock) directivePlaces⟩) }

/-- The textures that a part's faces show, in the order of the sides and without repetition. -/
def referenced (l : Leaf Float) (store : TextureStore) : List Texture :=
  (l.faces.toList.filterMap fun (_, f) => f.texture.bind store.resolve?).foldl
    (fun done t => if done.any fun other => other.id = t.id then done else done ++ [t]) []

def override (x : Exporter) (l : Leaf Float) : Override :=
  ⟨l.customId, (x.modelPath l).text⟩

end Exporter
end RigPack
