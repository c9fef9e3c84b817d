/-! The ways in which a keyframe leads to the next one, with their authored names. -/

namespace RigPack

/-- How a curve runs from one key toward the next. -/
inductive Interpolation
  | linear
  | catmullRom
  | step
  deriving DecidableEq, Repr, Inhabited

namespace Interpolation

def name : Interpolation → String
  | linear => "linear"
  | catmullRom => "catmullrom"
  | step => "step"

/-- The names that may be written, two of them for the smooth spline. -/
def names : List String :=
  ["linear", "catmullrom", "smooth", "step"]

def ofName? : String → Option Interpolation
  | "linear" => some linear
  | "catmullrom" | "smooth" => some catmullRom
  | "step" => some step
  | _ => none

theorem ofName?_name (i : Interpolation) : ofName? i.name = some i := by
  cases i <;> rfl

end Interpolation
end RigPack
