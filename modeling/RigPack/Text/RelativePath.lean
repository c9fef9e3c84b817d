/-!
Paths of assets relative to a base directory. Both slashes separate, empty and `.` segments say
nothing, and a path that starts at a root or climbs to a parent is refused, so what is left stays
below the base.
-/

namespace RigPack
namespace RelativePath

/-- Why a text names no file below a base directory. -/
inductive Fault
  | absolute
  | empty
  | climbs
  | namesNothing
  deriving DecidableEq, Repr

def Fault.message : Fault → String
  | absolute => "asset paths must be relative"
  | empty => "asset path must be non-empty"
  | climbs => "asset paths must not contain '..'"
  | namesNothing => "asset path must contain a file name"

/-- A backslash read as a slash. -/
def slash (c : Char) : Char :=
  if c = '\\' then '/' else c

/-- The pieces between the slashes of a path, the empty ones too. -/
def pieces (source : String) : List String :=
  ((source.toList.map slash).splitOn '/').map String.ofList

/-- The pieces that name something. -/
def segments (source : String) : List String :=
  (pieces source).filter fun s => s != "" && s != "."

/-- The path in its one normal form: the naming segments joined by slashes. -/
def normalize (source : String) : Except Fault String :=
  if (source.toList.map slash).head? = some '/' then .error .absolute
  else if source = "" then .error .empty
  else
    let kept := segments source
    if ".." ∈ kept then .error .climbs
    else if kept = [] then .error .namesNothing
    else .ok (String.intercalate "/" kept)

end RelativePath
end RigPack
