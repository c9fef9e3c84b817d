import Mathlib.Algebra.Group.Defs
import Mathlib.Tactic.Ring
import RigPack.Proofs.Numeric.Angles
import RigPack.Proofs.Space.Coordinates
import RigPack.Space.Pose

/-!
Matrices in exact arithmetic. They form a monoid that acts on the points of space, in which shifts
add up and a pose is a turn before a shift.
-/

namespace RigPack

variable {K : Type} [Field K] [LinearOrder K]

/-- The column of a point of space. -/
def Vec3.point (v : Vec3 K) : Vec4 K :=
  ⟨v.x,v.y,v.z,1⟩

namespace Vec3

@[simp] theorem x_zero : (zero : Vec3 K).x = 0 := Nat.cast_zero
@[simp] theorem y_zero : (zero : Vec3 K).y = 0 := Nat.cast_zero
@[simp] theorem z_zero : (zero : Vec3 K).z = 0 := Nat.cast_zero

lemma add_zero (v : Vec3 K) : v + zero = v := by
  ext <;> simp

end Vec3

namespace Mat4

lemma apply_mul (a b : Mat4 K) (v : Vec4 K) : (a * b).apply v = a.apply (b.apply v) := by
  ext <;> simp <;> ring

lemma apply_identity (v : Vec4 K) : (identity : Mat4 K).apply v = v := by
  ext <;> simp [identity,shift]

instance : Monoid (Mat4 K) where
  one := identity
  mul_assoc a b c := by ext : 1 <;> exact apply_mul a b _
  one_mul a := by ext : 1 <;> exact apply_identity _
  mul_one a := by
    change a * identity = a
    ext <;> simp [identity,shift]

/-- A shift moves every point. -/
lemma shift_apply (u v : Vec3 K) : (shift u).apply v.point = (u + v).point := by
  ext <;> simp [shift,Vec3.point] <;> ring

lemma shift_mul (u v : Vec3 K) : shift u * shift v = shift (u + v) := by
  ext <;> simp [shift] <;> ring

end Mat4

namespace Pose

variable [Angular K]

/-- A pose takes the origin to its position. -/
lemma toMatrix_apply_zero (p : Pose K) : p.toMatrix.apply Vec3.zero.point = p.position.point := by
  ext <;> simp [toMatrix,Vec3.point]

/-- A pose turns first and moves after. -/
lemma toMatrix_eq (p : Pose K) :
    p.toMatrix = Mat4.shift p.position * toMatrix ⟨.zero,p.rotation⟩ := by
  ext <;> simp [toMatrix,Mat4.shift]

/-- A pose without angles only moves. -/
lemma toMatrix_still (v : Vec3 K) : toMatrix ⟨v,.zero⟩ = Mat4.shift v := by
  ext <;> simp [toMatrix,Mat4.shift,Quat.ofDegrees,Quat.axes,radians]

/-- Whatever a pose turns, the pivot ends at the position. -/
lemma toMatrixAbout_apply (p : Pose K) (pivot : Vec3 K) :
    (p.toMatrixAbout pivot).apply pivot.point = p.position.point := by
  have hpivot : -pivot + pivot = Vec3.zero := by
    ext <;> simp
  rw [toMatrixAbout,Mat4.apply_mul,Mat4.shift_apply,hpivot,toMatrix_apply_zero]

/-- Without angles the pivot does not matter. -/
lemma toMatrixAbout_still (v pivot : Vec3 K) :
    toMatrixAbout ⟨pivot + v,.zero⟩ pivot = Mat4.shift v := by
  rw [toMatrixAbout,toMatrix_still,Mat4.shift_mul]
  congr 1
  ext <;> simp

end Pose
end RigPack
