import RigPack.Pack.Artifacts
import RigPack.Pack.Context
import RigPack.Pack.Support
import RigPack.Rig.Entity
import RigPack.Rig.Validate

/-! Entities compiled into the files of a pack. -/

namespace RigPack

structure CompiledEntity where
  name : String
  functions : Functions
  leaves : List (Leaf Float)
  animations : List CompiledAnimation
  /-- The programs that belong to no animation, with their paths. -/
  support : List (ResourcePath × Program)
  artifacts : ArtifactSet

/-- All programs of an entity with their paths. -/
def CompiledEntity.programs (e : CompiledEntity) : List (ResourcePath × Program) :=
  e.animations.flatMap CompiledAnimation.programs ++ e.support

namespace Compile

def functionFile (p : ResourcePath) : String :=
  p.fileIn "data" "functions" "mcfunction"

def modelFile (p : ResourcePath) : String :=
  p.fileIn "assets" "models" "json"

def textureFile (p : ResourcePath) : String :=
  p.fileIn "assets" "textures" "png"

/-- The model of an item, which holds the table of overrides. -/
def itemPath (item : String) : ResourcePath :=
  let (space, name) := splitItem item
  ((ResourcePath.root space).child "item").child name

def putProgram (s : ArtifactSet) : ResourcePath × Program → Except Error ArtifactSet
  | (path, p) => s.insertText (functionFile path) p.text

/-- The model of a part and the textures that it shows. -/
def putPart (x : Exporter) (store : TextureStore) (s : ArtifactSet) (l : Leaf Float) :
    Except Error ArtifactSet := do
  let model ← x.model l store
  let s ← s.insertValue (modelFile (x.modelPath l)) model.toValue
  (Exporter.referenced l store).foldlM (fun s t =>
    s.insert (textureFile (x.texturePath t.id)) (Png.encode t.image)) s

def putOverrides (x : Exporter) (leaves : List (Leaf Float)) (s : ArtifactSet) :
    Except Error ArtifactSet :=
  s.insertValue (modelFile (itemPath x.item))
    (OverrideTable.ofRows x.item (leaves.map x.override)).toValue

/-- The files of an entity: its programs, then what belongs to its parts, then the table. -/
def artifacts (x : Exporter) (store : TextureStore) (leaves : List (Leaf Float))
    (programs : List (ResourcePath × Program)) : Except Error ArtifactSet := do
  let s ← programs.foldlM putProgram {}
  let s ← leaves.foldlM (putPart x store) s
  putOverrides x leaves s

/-- An animation with its frame ids. -/
def plan (entity : String) (a : Animation Float) : Compiling Plan := do
  let policy ← LoopPolicy.understand entity a.name a.loop
  let lastTick ← lastTick a.length
  let firstFrame ← Context.allocFrames (lastTick + 1)
  return ⟨a.name, policy, lastTick, firstFrame⟩

def animation (f : Functions) (x : Exporter) (rig : Rig Float) (leaves : List (Leaf Float))
    (a : Animation Float) : Compiling CompiledAnimation := do
  let p ← plan rig.name a
  return Frames.compile f rig.animations.length x (Skeleton.bind rig.roots a.tracks leaves) p

end Compile

/-- The pack of an entity. Its textures are read from a disk. -/
def Entity.compile (disk : FileTree) (e : Entity) : Compiling CompiledEntity := do
  let rig := e.rig
  rig.validate
  if Names.entityTag rig.name ∈ Names.reserved then throw (.reservedName rig.name)
  let options := (← get).options
  Context.reserve rig.name (Node.partsOf rig.roots)
  let leaves ← Node.leaves Context.customIdFor rig.roots
  let store ← TextureStore.load disk e.base rig.textures
  let functions := Functions.ofEntity options.space rig.name
  let exporter : Exporter := ⟨rig.name, options.space, options.item⟩
  let animations ← rig.animations.mapM (Compile.animation functions exporter rig leaves)
  let support := Support.programs functions exporter leaves (animations.map fun a => a.plan.name)
  let artifacts ← Compile.artifacts exporter store leaves
    (animations.flatMap CompiledAnimation.programs ++ support)
  return ⟨rig.name, functions, leaves, animations, support, artifacts⟩

end RigPack
