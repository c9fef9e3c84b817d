import RigPack.Error

/-! What an animation does at its last tick when no successor was asked for. -/

namespace RigPack

inductive LoopPolicy
  /-- Play once, then rest. -/
  | once
  /-- Keep running the last tick. -/
  | hold
  /-- Start again from the first tick. -/
  | loop
  deriving DecidableEq, Repr

namespace LoopPolicy

def name : LoopPolicy → String
  | once => "once"
  | hold => "hold"
  | loop => "loop"

def ofName? : String → Option LoopPolicy
  | "once" => some once
  | "hold" => some hold
  | "loop" => some loop
  | _ => none

theorem ofName?_name (p : LoopPolicy) : ofName? p.name = some p := by
  cases p <;> rfl

/-- The policy that an animation was authored with. -/
def understand (entity animation found : String) : Except Error LoopPolicy :=
  match ofName? found with
  | some p => .ok p
  | none => .error (.loopPolicy entity animation found)

end LoopPolicy
end RigPack
