import RigPack.Error
import RigPack.Rig.Decode

/-! Rigs with the directory against which their texture paths are read. -/

namespace RigPack

structure Entity where
  rig : Rig Float
  base : DiskPath

namespace Entity

def ofLetters (text : List Letter) (base : DiskPath) : Except Error Entity :=
  match Rig.read text with
  | .ok rig => .ok ⟨rig, base⟩
  | .error fault => .error (.rigSyntax fault)

/-- The entity in a file. Its base is the directory of the file as the path names it. A directory
can be opened like a file but has no text. -/
def ofFile (disk : FileTree) (path : DiskPath) : Except Error Entity :=
  match disk.read path with
  | .ok bytes => ofLetters (Letters.ofBytes bytes) (path.parent?.getD ⟨["."]⟩)
  | .error .isDirectory => .error (.rigSyntax .malformed)
  | .error fault => .error (.unopenableRig path.text fault)

end Entity
end RigPack
