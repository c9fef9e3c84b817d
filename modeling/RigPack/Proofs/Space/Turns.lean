import Mathlib.Tactic
import RigPack.Proofs.Space.Matrices

/-!
Turns in exact arithmetic. A quaternion of length one stands for a turn, the product of two
quaternions for one turn after the other, and the matrices that turn and then shift are closed under
products.
-/

namespace RigPack

variable {K : Type} [Field K] [LinearOrder K] [Angular K]

namespace Quat

variable {p q : Quat K}

/-- The square of a quaternion's length. -/
def normSq (q : Quat K) : K :=
  q.x * q.x + q.y * q.y + q.z * q.z + q.w * q.w

/-- The turn by `q`, and then the one by `p`. -/
def times (p q : Quat K) : Quat K :=
  ⟨p.w * q.x + p.x * q.w + p.y * q.z - p.z * q.y, p.w * q.y - p.x * q.z + p.y * q.w + p.z * q.x,
    p.w * q.z + p.x * q.y - p.y * q.x + p.z * q.w, p.w * q.w - p.x * q.x - p.y * q.y - p.z * q.z⟩

lemma normSq_times (p q : Quat K) : (p.times q).normSq = p.normSq * q.normSq := by
  simp only [normSq,times]
  ring

/-- The images of the axes as forms of the second degree. -/
lemma axes_eq (h : q.normSq = 1) :
    q.axes =
      (⟨q.w * q.w + q.x * q.x - q.y * q.y - q.z * q.z,2 * (q.x * q.y + q.w * q.z),
          2 * (q.x * q.z - q.w * q.y)⟩,
        ⟨2 * (q.x * q.y - q.w * q.z),q.w * q.w - q.x * q.x + q.y * q.y - q.z * q.z,
          2 * (q.y * q.z + q.w * q.x)⟩,
        ⟨2 * (q.x * q.z + q.w * q.y),2 * (q.y * q.z - q.w * q.x),
          q.w * q.w - q.x * q.x - q.y * q.y + q.z * q.z⟩) := by
  rw [normSq] at h
  have hdiagonal (a b : K) :
      1 - (a * (a + a) + b * (b + b)) = q.x * q.x + q.y * q.y + q.z * q.z + q.w * q.w -
        2 * (a * a) - 2 * (b * b) := by
    rw [h]
    ring
  simp only [axes,Nat.cast_one,hdiagonal]
  ext <;> ring

/-- A quaternion and its opposite stand for the same turn. -/
lemma axes_scaled {s : K} (hs : s * s = 1) (q : Quat K) :
    axes ⟨s * q.x,s * q.y,s * q.z,s * q.w⟩ = q.axes := by
  have hpair (a b : K) : s * a * (s * b + s * b) = a * (b + b) := by
    linear_combination a * (b + b) * hs
  simp only [axes,hpair]

/-- Three axes of length one that stand upright on each other, as those of a right hand do. -/
structure IsFrame (X Y Z : Vec3 K) : Prop where
  first : X.x * X.x + X.y * X.y + X.z * X.z = 1
  second : Y.x * Y.x + Y.y * Y.y + Y.z * Y.z = 1
  upright : X.x * Y.x + X.y * Y.y + X.z * Y.z = 0
  third_x : Z.x = X.y * Y.z - X.z * Y.y
  third_y : Z.y = X.z * Y.x - X.x * Y.z
  third_z : Z.z = X.x * Y.y - X.y * Y.x

lemma isFrame_axes (h : q.normSq = 1) : IsFrame q.axes.1 q.axes.2.1 q.axes.2.2 := by
  rw [axes_eq h]
  rw [normSq] at h
  constructor
  all_goals dsimp only
  · linear_combination (q.x * q.x + q.y * q.y + q.z * q.z + q.w * q.w + 1) * h
  · linear_combination (q.x * q.x + q.y * q.y + q.z * q.z + q.w * q.w + 1) * h
  · ring
  · linear_combination -2 * (q.x * q.z + q.w * q.y) * h
  · linear_combination -2 * (q.y * q.z - q.w * q.x) * h
  · linear_combination -(q.w * q.w - q.x * q.x - q.y * q.y + q.z * q.z) * h

namespace IsFrame

variable {X Y Z : Vec3 K} (h : IsFrame X Y Z)
include h

lemma third : Z.x * Z.x + Z.y * Z.y + Z.z * Z.z = 1 := by
  rw [h.third_x,h.third_y,h.third_z]
  linear_combination (Y.x * Y.x + Y.y * Y.y + Y.z * Y.z) * h.first + h.second -
    (X.x * Y.x + X.y * Y.y + X.z * Y.z) * h.upright

lemma last_row : X.z * X.z + (Z.z * Z.z + Y.z * Y.z) = 1 := by
  rw [h.third_z]
  linear_combination (Y.x * Y.x + Y.y * Y.y) * h.first + (1 - X.z * X.z) * h.second -
    (X.x * Y.x + X.y * Y.y - X.z * Y.z) * h.upright

lemma second_x_eq : Y.x * (Z.z * Z.z + Y.z * Y.z) = -(Y.z * X.z * X.x) - Z.z * X.y := by
  linear_combination Y.x * h.last_row - Y.x * h.first + X.y * h.third_z + X.x * h.upright

lemma second_y_eq : Y.y * (Z.z * Z.z + Y.z * Y.z) = -(Y.z * X.z * X.y) + Z.z * X.x := by
  linear_combination Y.y * h.last_row - Y.y * h.first - X.x * h.third_z + X.y * h.upright

lemma third_x_eq : Z.x * (Z.z * Z.z + Y.z * Y.z) = -(Z.z * X.z * X.x) + Y.z * X.y := by
  linear_combination Z.x * h.last_row + (1 - X.z * X.z) * h.third_x + X.z * X.x * h.third_z +
    X.z * Y.y * h.first - X.z * X.y * h.upright

lemma third_y_eq : Z.y * (Z.z * Z.z + Y.z * Y.z) = -(Z.z * X.z * X.y) - Y.z * X.x := by
  linear_combination Z.y * h.last_row + (1 - X.z * X.z) * h.third_y + X.z * X.y * h.third_z -
    X.z * Y.x * h.first + X.z * X.x * h.upright

end IsFrame

end Quat

namespace Mat4

/-- The matrix that turns by `q`, then shifts by `v`. -/
def ofTurn (q : Quat K) (v : Vec3 K) : Mat4 K :=
  ⟨⟨q.axes.1.x,q.axes.1.y,q.axes.1.z,0⟩,⟨q.axes.2.1.x,q.axes.2.1.y,q.axes.2.1.z,0⟩,
    ⟨q.axes.2.2.x,q.axes.2.2.y,q.axes.2.2.z,0⟩,v.point⟩

lemma toMatrix_eq_ofTurn (p : Pose K) : p.toMatrix = ofTurn (.ofDegrees p.rotation) p.position := by
  ext <;> simp [Pose.toMatrix,ofTurn,Vec3.point]

/-- A matrix that turns and then shifts. -/
def IsRigid (m : Mat4 K) : Prop :=
  ∃ q : Quat K, q.normSq = 1 ∧ ∃ v, m = ofTurn q v

lemma ofTurn_mul {p q : Quat K} (hp : p.normSq = 1) (hq : q.normSq = 1) (u v : Vec3 K) :
    ∃ w, ofTurn p u * ofTurn q v = ofTurn (p.times q) w := by
  have hpq : (p.times q).normSq = 1 := by rw [Quat.normSq_times,hp,hq,one_mul]
  refine ⟨((ofTurn p u).apply v.point).xyz,?_⟩
  simp only [ofTurn,Quat.axes_eq hp,Quat.axes_eq hq,Quat.axes_eq hpq,Vec4.xyz]
  ext
  all_goals simp [Quat.times,Vec3.point]
  all_goals ring

/-- One rigid matrix after another is rigid. -/
lemma IsRigid.mul {a b : Mat4 K} (ha : a.IsRigid) (hb : b.IsRigid) : (a * b).IsRigid := by
  obtain ⟨p,hp,u,rfl⟩ := ha
  obtain ⟨q,hq,v,rfl⟩ := hb
  obtain ⟨w,hw⟩ := ofTurn_mul hp hq u v
  exact ⟨p.times q,by rw [Quat.normSq_times,hp,hq,one_mul],w,hw⟩

lemma isRigid_shift (v : Vec3 K) : (shift v).IsRigid := by
  refine ⟨⟨0,0,0,1⟩,by simp [Quat.normSq],v,?_⟩
  ext <;> simp [shift,ofTurn,Quat.axes,Vec3.point]

/-- A turn by a quaternion of length one, however it is followed, turns no hand into the other. -/
lemma determinant_ofTurn {q : Quat K} (h : q.normSq = 1) (v : Vec3 K) :
    (ofTurn q v).determinant = 1 := by
  have hcube : (ofTurn q v).determinant = q.normSq * q.normSq * q.normSq := by
    simp only [determinant,ofTurn,Quat.axes_eq h,Vec3.point,Quat.normSq]
    ring
  rw [hcube,h,one_mul,one_mul]

end Mat4

end RigPack
