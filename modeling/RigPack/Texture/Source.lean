import RigPack.Error
import RigPack.Image.Png
import RigPack.Rig.Basic
import RigPack.Text.Base64
import RigPack.Text.Blank

/-! Where the bytes of a texture come from: out of the rig itself, or out of a file below its base.
-/

namespace RigPack
namespace TextureSource

/-- What an image inside the rig's file starts with. -/
def inlineMark : String := "data:image/png;base64,"

/-- What all sources that are no paths start with. -/
def dataMark : String := "data:"

/-- What a source says: the encoded bytes themselves, or the path of a file. -/
def reference (base : DiskPath) (source : String) : Except Error (List Char ⊕ DiskPath) :=
  match inlineMark.toList.isPrefixOf? source.toList with
  | some encoded => .ok (.inl (trimBlanks encoded))
  | none =>
    if dataMark.toList.isPrefixOf source.toList then .error .imageScheme
    else match RelativePath.normalize source with
      | .error fault => .error (.relativePath fault)
      | .ok rel => .ok (.inr (base.join (DiskPath.ofText rel).pieces))

/-- The bytes that a source stands for. -/
def bytes (disk : FileTree) (base : DiskPath) (source : String) : Except Error ByteArray := do
  match ← reference base source with
  | .inl encoded =>
    match Base64.decode? encoded with
    | some bytes => return bytes
    | none => throw .encodedImage
  | .inr path =>
    match disk.read path with
    | .ok bytes => return bytes
    | .error fault => throw (.unreadableImage path.text fault)

/-- The image that a definition stands for. -/
def image (disk : FileTree) (base : DiskPath) (t : TextureSource) : Except Error Image :=
  match bytes disk base t.source with
  | .error e => .error (.textureSource t.id e)
  | .ok file =>
    match Png.decode? file with
    | some image => .ok image
    | none => .error (.undecodableImage t.id)

end TextureSource
end RigPack
