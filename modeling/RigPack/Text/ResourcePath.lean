/-! Namespaced resource paths, written `namespace:a/b/c`, and the pack files they live in. -/

namespace RigPack

/-- A resource: its namespace and the segments of its path below it. -/
structure ResourcePath where
  space : String
  segments : List String
  deriving DecidableEq, Repr, Inhabited

namespace ResourcePath

def root (space : String) : ResourcePath :=
  ⟨space, []⟩

def child (p : ResourcePath) (segment : String) : ResourcePath :=
  ⟨p.space, p.segments ++ [segment]⟩

def path (p : ResourcePath) : String :=
  String.intercalate "/" p.segments

def text (p : ResourcePath) : String :=
  p.space ++ ":" ++ p.path

/-- The file of the resource inside a pack: below the pack's part, the namespace and the kind. -/
def fileIn (p : ResourcePath) (part kind extension : String) : String :=
  part ++ "/" ++ p.space ++ "/" ++ kind ++ "/" ++ p.path ++ "." ++ extension

/-- By namespace, then segment by segment. -/
instance : Ord ResourcePath :=
  ⟨fun a b => (compare a.space b.space).then (compare a.segments b.segments)⟩

@[simp] theorem space_child (p : ResourcePath) (s : String) : (p.child s).space = p.space := rfl

@[simp] theorem segments_child (p : ResourcePath) (s : String) :
    (p.child s).segments = p.segments ++ [s] := rfl

end ResourcePath
end RigPack
