import RigPack.Hash.Xxh3
import RigPack.Texture.Source

/-!
The textures of a rig. Ids whose images are equal stand for the first of them, so every image is
exported once. Images are compared as they are encoded, and a hash of the image only narrows the
search for an equal one.
-/

namespace RigPack

structure Texture where
  id : String
  image : Image
  hash : UInt64

structure TextureStore where
  /-- Every texture as defined, by id. -/
  textures : Std.ExtTreeMap String Texture := ∅
  /-- For every id the id under which its image is exported. -/
  exported : Std.ExtTreeMap String String := ∅
  /-- The ids that had an image of their own when they were defined, in that order, with its hash.
  -/
  firsts : List (UInt64 × String) := []

namespace TextureStore

def get? (s : TextureStore) (id : String) : Option Texture :=
  s.textures[id]?

/-- The texture exported for an id. -/
def resolve? (s : TextureStore) (id : String) : Option Texture :=
  s.exported[id]?.bind s.get?

/-- Whether a hash with an id belongs to an image that is encoded the same. -/
def fits (encode : Image → ByteArray) (s : TextureStore) (t : Texture) (entry : UInt64 × String) :
    Bool :=
  entry.1 = t.hash &&
    (s.get? entry.2).any fun other => (encode other.image).data = (encode t.image).data

/-- The earliest id of an image that is encoded the same. -/
def sameAs? (encode : Image → ByteArray) (s : TextureStore) (t : Texture) : Option String :=
  (s.firsts.find? (s.fits encode t)).map Prod.snd

def add (encode : Image → ByteArray) (s : TextureStore) (t : Texture) : TextureStore :=
  match s.sameAs? encode t with
  | some first =>
    { s with
      textures := s.textures.insert t.id t
      exported := s.exported.insert t.id first }
  | none =>
    { textures := s.textures.insert t.id t
      exported := s.exported.insert t.id t.id
      firsts := s.firsts ++ [(t.hash, t.id)] }

/-- The number of ids that are exported as themselves. -/
def distinctCount (s : TextureStore) : Nat :=
  (s.exported.toList.filter fun (id, first) => id = first).length

/-- The hash that tells images apart by their pixels alone. -/
def pixelHash (image : Image) : UInt64 :=
  Xxh3.hash64 0 image.pixels

/-- The store of a list of definitions. `load` finds the image of each. -/
def ofSources (encode : Image → ByteArray) (hash : Image → UInt64)
    (load : TextureSource → Except Error Image) (sources : List TextureSource) :
    Except Error TextureStore :=
  sources.foldlM (fun s t => do
    let image ← load t
    return s.add encode ⟨t.id, image, hash image⟩) {}

/-- The store of a rig's textures, read relative to a base. -/
def load (disk : FileTree) (base : DiskPath) (sources : List TextureSource) :
    Except Error TextureStore :=
  ofSources Png.encode pixelHash (TextureSource.image disk base) sources

end TextureStore
end RigPack
