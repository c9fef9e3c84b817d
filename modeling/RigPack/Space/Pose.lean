import RigPack.Space.Quat

/-!
Rigid placements. A pose is a position with three angles; its matrix turns first and moves after.
Taking a matrix apart forgets scale, which no rig ever has.
-/

namespace RigPack

structure Pose (α : Type) where
  position : Vec3 α
  /-- Angles in degrees. -/
  rotation : Vec3 α
  deriving DecidableEq, Repr, Inhabited

variable {α : Type} [Trigonometric α]

namespace Pose

def map {β γ : Type} (f : β → γ) (p : Pose β) : Pose γ :=
  ⟨p.position.map f, p.rotation.map f⟩

/-- The matrix that turns about the origin, then moves it to the position. -/
def toMatrix (p : Pose α) : Mat4 α :=
  let column (v : Vec3 α) (w : Nat) : Vec4 α := ⟨v.x, v.y, v.z, (w : α)⟩
  let (X, Y, Z) := (Quat.ofDegrees p.rotation).axes
  ⟨column X 0, column Y 0, column Z 0, column p.position 1⟩

/-- The matrix that turns about `pivot`, then moves it to the position. -/
def toMatrixAbout (p : Pose α) (pivot : Vec3 α) : Mat4 α :=
  p.toMatrix * Mat4.shift (-pivot)

/-- The rigid part of a matrix. A matrix that turns a left hand into a right one counts as flipped
along its first axis. -/
def ofMatrix (m : Mat4 α) : Pose α :=
  let one : α := (1 : Nat)
  let length (v : Vec4 α) : α := Trigonometric.sqrt (v.dot v)
  let unit (v : Vec4 α) (size : α) : Vec3 α := (v.scale (one / size)).xyz
  let q := Quat.ofAxes
    (unit m.xAxis (length m.xAxis * Trigonometric.signum m.determinant))
    (unit m.yAxis (length m.yAxis)) (unit m.zAxis (length m.zAxis))
  ⟨m.wAxis.xyz, q.toDegrees⟩

end Pose
end RigPack
