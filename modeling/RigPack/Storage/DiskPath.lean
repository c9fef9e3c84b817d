/-! Paths on a disk, kept as they were written: the pieces between the slashes, the empty ones too.
-/

namespace RigPack

/-- A path. It starts at the root if its first piece is empty and others follow. -/
structure DiskPath where
  pieces : List String
  deriving DecidableEq, Repr, Inhabited

namespace DiskPath

def ofText (s : String) : DiskPath :=
  ⟨(s.toList.splitOn '/').map String.ofList⟩

def text (p : DiskPath) : String :=
  String.intercalate "/" p.pieces

/-- The path of something below a directory. The pieces that name it come after a slash of the
directory's own, if it ends in one. -/
def join (p : DiskPath) (below : List String) : DiskPath :=
  ⟨(if p.pieces.getLast? = some "" then p.pieces.dropLast else p.pieces) ++ below⟩

/-- Whether a piece after the first says nothing. -/
def isIdle (piece : String) : Bool :=
  piece = "" || piece = "."

/-- The pieces up to the last one that says something. The first one always does. -/
def withoutIdleEnd : List String → List String
  | [] => []
  | first :: rest => first :: (rest.reverse.dropWhile isIdle).reverse

/-- The path of the directory that holds this path's last piece, if it has one. -/
def parent? (p : DiskPath) : Option DiskPath :=
  match withoutIdleEnd p.pieces with
  | [] => none
  | [first] => if first = "" then none else some ⟨[""]⟩
  | pieces =>
    match withoutIdleEnd pieces.dropLast with
    | [""] => some ⟨["", ""]⟩
    | above => some ⟨above⟩

end DiskPath
end RigPack
