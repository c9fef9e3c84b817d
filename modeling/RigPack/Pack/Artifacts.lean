import RigPack.Error
import RigPack.Json.Value
import Std.Data.ExtTreeMap

/-! The files of a pack. The first bytes that a path gets stay; the same bytes may come again. -/

namespace RigPack

/-- Files by their paths in the pack. -/
structure ArtifactSet where
  files : Std.ExtTreeMap String ByteArray := ∅

namespace ArtifactSet

def get? (s : ArtifactSet) (path : String) : Option ByteArray :=
  s.files[path]?

def insert (s : ArtifactSet) (path : String) (bytes : ByteArray) : Except Error ArtifactSet :=
  match s.get? path with
  | none => .ok ⟨s.files.insert path bytes⟩
  | some known => if known.data = bytes.data then .ok s else .error (.conflictingArtifact path)

/-- A step on a set of files. What was put in before a failure stays. -/
abbrev Filing := ExceptT Error (StateM ArtifactSet)

/-- Inserts a file. A set that refuses it stays as it was. -/
def put (path : String) (bytes : ByteArray) : Filing Unit := do
  match (← get).insert path bytes with
  | .ok s => set s
  | .error e => throw e

def insertText (s : ArtifactSet) (path text : String) : Except Error ArtifactSet :=
  s.insert path text.toUTF8

def insertValue (s : ArtifactSet) (path : String) (v : Value) : Except Error ArtifactSet :=
  s.insertText path v.file

/-- The files in the order of their paths. -/
def toList (s : ArtifactSet) : List (String × ByteArray) :=
  s.files.toList

def paths (s : ArtifactSet) : List String :=
  s.toList.map Prod.fst

def size (s : ArtifactSet) : Nat :=
  s.files.size

def totalBytes (s : ArtifactSet) : Nat :=
  s.toList.foldl (fun n (_, bytes) => n + bytes.size) 0

/-- The set of these files, put in one after another. -/
def ofList (files : List (String × ByteArray)) : Except Error ArtifactSet :=
  files.foldlM (fun s (path, bytes) => s.insert path bytes) {}

end ArtifactSet
end RigPack
