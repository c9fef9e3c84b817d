import RigPack.Storage.DiskPath
import Std.Data.ExtTreeMap

/-!
Disks as maps from places to files and directories, and the operations on them. A place is the list
of names that leads to it from the root, and the root is always there.
-/

namespace RigPack

/-- Why an operation on a disk fails. -/
inductive DiskFault
  | notFound
  | occupied
  | notDirectory
  | isDirectory
  | nameTooLong
  /-- No name holds the character zero, so none is ever looked up. -/
  | zeroInName
  /-- Another failure of a real disk, in the words of its system. -/
  | other (text : String)
  deriving DecidableEq, Repr

def DiskFault.message : DiskFault → String
  | notFound => "No such file or directory (os error 2)"
  | occupied => "File exists (os error 17)"
  | notDirectory => "Not a directory (os error 20)"
  | isDirectory => "Is a directory (os error 21)"
  | nameTooLong => "File name too long (os error 36)"
  | zeroInName => "file name contained an unexpected NUL byte"
  | other text => text

/-- What is found at a place. -/
inductive DiskEntry
  | directory
  | file (bytes : ByteArray)

/-- A disk with the place from which relative paths start. -/
structure FileTree where
  entries : Std.ExtTreeMap (List String) DiskEntry := ∅
  here : List String := []
  /-- The most bytes that a name may have, if there is a limit. -/
  nameLimit : Option Nat := none
  /-- The most bytes that a path may have, if there is a limit. -/
  pathLimit : Option Nat := none

/-- Something done to a disk. What was done before a failure stays done. -/
abbrev DiskAction (β : Type) := ExceptT DiskFault (StateM FileTree) β

namespace FileTree

def entry? (t : FileTree) (place : List String) : Option DiskEntry :=
  if place = [] then some .directory else t.entries[place]?

/-- Whether a text keeps to a limit of bytes. -/
def keepsTo (limit : Option Nat) (text : String) : Bool :=
  match limit with
  | some n => text.utf8ByteSize ≤ n
  | none => true

/-- Goes on from a directory by one piece of a path. -/
def step (t : FileTree) (place : List String) (piece : String) : Except DiskFault (List String) :=
  match t.entry? place with
  | none => .error .notFound
  | some (.file _) => .error .notDirectory
  | some .directory =>
    if DiskPath.isIdle piece then .ok place
    else if piece = ".." then .ok place.dropLast
    else if keepsTo t.nameLimit piece then .ok (place ++ [piece])
    else .error .nameTooLong

/-- Where a path starts, and the pieces that lead on from there. -/
def origin (t : FileTree) (p : DiskPath) : Except DiskFault (List String × List String) :=
  if p.pieces.any fun piece => piece.toList.any (· = '\x00') then .error .zeroInName
  else if !keepsTo t.pathLimit p.text then .error .nameTooLong
  else match p.pieces with
    | [] | [""] => .error .notFound
    | "" :: rest => .ok ([], rest)
    | pieces => .ok (t.here, pieces)

/-- Goes on from a place by the pieces of a path. -/
def follow (t : FileTree) (start : List String) (pieces : List String) :
    Except DiskFault (List String) :=
  pieces.foldlM t.step start

/-- The place that a path leads to. All directories on the way are there; the place may be empty. -/
def locate (t : FileTree) (p : DiskPath) : Except DiskFault (List String) := do
  let (start, pieces) ← t.origin p
  t.follow start pieces

def read (t : FileTree) (p : DiskPath) : Except DiskFault ByteArray := do
  match t.entry? (← t.locate p) with
  | none => .error .notFound
  | some .directory => .error .isDirectory
  | some (.file bytes) => .ok bytes

def put (t : FileTree) (place : List String) (e : DiskEntry) : FileTree :=
  { t with entries := t.entries.insert place e }

def erase (t : FileTree) (place : List String) : FileTree :=
  { t with entries := t.entries.erase place }

/-- The disk with directories at a place and at all places before it. -/
def putDirectories (t : FileTree) (place : List String) : FileTree :=
  (List.range (place.length + 1)).foldl (fun t n => t.put (place.take n) .directory) t

/-- The disk with a file at a place, below directories at all places before it. -/
def plant (t : FileTree) (place : List String) (bytes : ByteArray) : FileTree :=
  (t.putDirectories place.dropLast).put place (.file bytes)

/-- Whether a path leads to a directory. -/
def isDirectory (t : FileTree) (p : DiskPath) : Bool :=
  match t.locate p with
  | .error _ => false
  | .ok place =>
    match t.entry? place with
    | some .directory => true
    | _ => false

/-- Makes one directory below directories that are there. A path that ends in a dot names nothing
new, even if there is nothing where it leads. -/
def makeDirectory (p : DiskPath) : DiskAction Unit := do
  let t ← get
  let (start, pieces) ← t.origin p
  let pieces := (pieces.reverse.dropWhile (· = "")).reverse
  let above ← t.follow start pieces.dropLast
  let place ← t.step above ((pieces.getLast?).getD "")
  match t.entry? place with
  | some _ => throw .occupied
  | none => set (t.put place .directory)

/-- Makes a directory unless it is there. -/
def ensureDirectory (p : DiskPath) : DiskAction Unit :=
  tryCatch (makeDirectory p) fun fault => do
    if fault = .occupied ∧ (← get).isDirectory p then pure () else throw fault

/-- Makes a directory below directories that may have to be made before, `n` of them at most. The
root and the empty path are always there. -/
def makeDirectoriesFrom : Nat → DiskPath → DiskAction Unit
  | 0, p => if p.parent?.isNone then pure () else ensureDirectory p
  | n + 1, p =>
    match p.parent? with
    | none => pure ()
    | some above =>
      tryCatch (ensureDirectory p) fun fault => do
        if fault = .notFound then
          makeDirectoriesFrom n above
          ensureDirectory p
        else throw fault

/-- Makes all directories of a path that are not there. -/
def makeDirectories (p : DiskPath) : DiskAction Unit :=
  makeDirectoriesFrom p.pieces.length p

/-- Makes a file with these bytes, or replaces the bytes of the one that is there. -/
def write (p : DiskPath) (bytes : ByteArray) : DiskAction Unit := do
  let t ← get
  let place ← t.locate p
  match t.entry? place with
  | some .directory => throw .isDirectory
  | _ => set (t.put place (.file bytes))

/-- Gives a file another path. A file that was there is replaced. -/
def rename (old new : DiskPath) : DiskAction Unit := do
  let t ← get
  let source ← t.locate old
  let target ← t.locate new
  match t.entry? source, t.entry? target with
  | none, _ => throw .notFound
  | _, some .directory => throw .isDirectory
  | some e, _ => set ((t.erase source).put target e)

def remove (p : DiskPath) : DiskAction Unit := do
  let t ← get
  let place ← t.locate p
  match t.entry? place with
  | none => throw .notFound
  | some .directory => throw .isDirectory
  | some (.file _) => set (t.erase place)

/-- The files below a place, by their names from there, in the order of the names. -/
def filesBelow (t : FileTree) (place : List String) : List (List String × ByteArray) :=
  t.entries.toList.filterMap fun (names, e) =>
    match e, place.isPrefixOf? names with
    | .file bytes, some below => some (below, bytes)
    | _, _ => none

/-- Whether two entries are directories, or files with the same bytes. -/
def sameEntry : DiskEntry → DiskEntry → Bool
  | .directory, .directory => true
  | .file a, .file b => a.data = b.data
  | _, _ => false

/-- What stands on a disk and did not stand there before, directories before what is in them. -/
def changesSince (t before : FileTree) : List (List String × DiskEntry) :=
  t.entries.toList.filter fun (place, e) => !before.entries[place]?.any (sameEntry e)

end FileTree
end RigPack
