import RigPack.CommandLine.Run

/-!
The program. The files that a command reads are taken from the disk first, and what the command made
is written to it last. In between nothing is read or written.
-/

namespace RigPack
namespace Shell

/-- The place that a path leads to if all directories on the way are there. -/
def placeOf (here : List String) (p : DiskPath) : List String :=
  let start := if p.pieces.head? = some "" then [] else here
  p.pieces.foldl (fun place piece =>
    if DiskPath.isIdle piece then place
    else if piece = ".." then place.dropLast
    else place ++ [piece]) start

/-- The path of a place. -/
def pathOf (place : List String) : String :=
  "/" ++ String.intercalate "/" place

/-- Takes over the file at a path, or the directory that is there in its place. -/
def load (t : FileTree) (p : DiskPath) : IO FileTree := do
  let place := placeOf t.here p
  try
    return t.plant place (← IO.FS.readBinFile p.text)
  catch
    | .inappropriateType .. => return t.putDirectories place
    | _ => return t

/-- The disk as far as a command reads it: the rig, then the images that the rig refers to. -/
def diskFor (c : CommandLine.Command) : IO FileTree := do
  let here := ((toString (← IO.currentDir)).splitOn "/").filter (· ≠ "")
  let empty : FileTree := { here, nameLimit := some 255, pathLimit := some 4095 }
  let t := empty.putDirectories here
  let t ← (CommandLine.filesRead t c).foldlM load t
  (CommandLine.filesRead t c).foldlM load t

/-- Reports a failure of the disk as an error of writing. -/
def writing (error : DiskFault → Error) (action : IO Unit) : ExceptT Error IO Unit := do
  match ← action.toBaseIO with
  | .ok () => return ()
  | .error e => throw (error (.other (toString e)))

/-- Makes one directory or file. A file is written under another name beside its own, then renamed.
-/
def apply : List String × DiskEntry → ExceptT Error IO Unit
  | (place, .directory) =>
    writing (.directory (pathOf place)) (IO.FS.createDirAll (pathOf place))
  | (place, .file bytes) => do
    let temporary := pathOf (place.dropLast ++
      [DirectoryOutput.temporaryName ((place.getLast?).getD "")])
    writing (.unwritable temporary) (IO.FS.writeBinFile temporary bytes)
    writing (.unmovable (pathOf place)) (IO.FS.rename temporary (pathOf place))

/-- Runs a command on the machine. What could not be written makes the run fail. -/
def run (c : CommandLine.Command) : IO CommandLine.Outcome := do
  let disk ← diskFor c
  let outcome := c.run disk
  match ← ((outcome.disk.changesSince disk).forM apply).run with
  | .ok () => return outcome
  | .error e => return CommandLine.failed disk ⟨some "write artifacts", e⟩

end Shell
end RigPack

open RigPack in
def main (args : List String) : IO UInt32 := do
  let outcome ← match CommandLine.parse? args with
    | some c => Shell.run c
    | none => pure (CommandLine.run {} args)
  (← IO.getStdout).putStr outcome.stdout
  (← IO.getStderr).putStr outcome.stderr
  return outcome.code.toUInt32
