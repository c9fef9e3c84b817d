import RigPack.Output.Sink

/-!
Packs in a directory. Each file is written under another name beside its own and then renamed, so
that no reader finds a half of it.
-/

namespace RigPack

/-- A disk, and the number of files that have been written to it since the start. -/
structure DirectoryOutput where
  disk : FileTree
  written : Nat := 0

/-- Something done in sending files to a directory. What was done before a failure stays done. -/
abbrev Writing (β : Type) := ExceptT Error (StateM DirectoryOutput) β

namespace DirectoryOutput

/-- Does something to the disk and reports its failure as an error. -/
def onDisk {β : Type} (error : DiskFault → Error) (action : DiskAction β) : Writing β := do
  let o ← get
  let (result, disk) := action.run.run o.disk
  set { o with disk }
  match result with
  | .ok v => return v
  | .error fault => throw (error fault)

/-- Does something to the disk, and nothing more if it fails. -/
def attempt (action : DiskAction Unit) : Writing Unit :=
  modify fun o => { o with disk := (action.run.run o.disk).2 }

/-- The name under which a file is written first. -/
def temporaryName (name : String) : String :=
  "." ++ name ++ ".tmp"

/-- Does something, and takes a file away if that fails. -/
def orRemove (file : DiskPath) (action : Writing Unit) : Writing Unit :=
  tryCatch action fun e => do
    attempt (FileTree.remove file)
    throw e

def writeFile (root : DiskPath) (path : String) (bytes : ByteArray) : Writing Unit := do
  match RelativePath.normalize path with
  | .error fault => throw (.relativePath fault)
  | .ok rel =>
    let pieces := (DiskPath.ofText rel).pieces
    let target := root.join pieces
    let directory := target.parent?.getD root
    let temporary := directory.join [temporaryName ((pieces.getLast?).getD "")]
    onDisk (.directory directory.text) (FileTree.makeDirectories directory)
    orRemove temporary <|
      onDisk (.unwritable temporary.text) (FileTree.write temporary bytes)
    orRemove temporary <|
      onDisk (.unmovable target.text) (FileTree.rename temporary target)
    modify fun o => { o with written := o.written + 1 }

end DirectoryOutput

/-- The sink that writes below a root, and makes the root if it is not there. -/
def directorySink (root : DiskPath) : Sink (ExceptT Error (StateM DirectoryOutput)) where
  start _ := do
    modify fun o => { o with written := 0 }
    DirectoryOutput.onDisk (.outputDirectory root.text) (FileTree.makeDirectories root)
  write := DirectoryOutput.writeFile root
  finish := pure ()

end RigPack
